/-
  What the rules see of a document: its start tags with their attributes, and the lines that belong
  to verbatim content, which indentation rules leave alone.
-/
import MarkupLint.Markup.Attribute
import MarkupLint.Markup.Source
import MarkupLint.Markup.Token

namespace MarkupLint.Markup

/-- A start tag, self-closing or not: its lower-case element name, the offset of its `<`, and its
    attributes, whose offsets count from there. -/
structure Tag where
  name : Bytes
  offset : Nat
  attributes : List Attribute
  deriving DecidableEq, Repr

/-- The offset in the document of an attribute of the tag. -/
def Tag.offsetOf (t : Tag) (a : Attribute) : Nat := t.offset + a.offset

/-- The tags of a document in order, and the numbers of its verbatim lines in ascending order. -/
structure Outline where
  tags : List Tag
  verbatim : List Nat
  deriving DecidableEq, Repr

/-- The elements whose content keeps its own layout. -/
def verbatimElements : List Bytes := ["pre", "textarea", "script", "style"].map Bytes.ofString

/-- The reading so far: the offset reached, the verbatim element that is open, and what was found,
    the latest first. -/
structure OutlineState where
  offset : Nat
  open? : Option Bytes
  tags : List Tag
  verbatim : List Nat

namespace OutlineState

def start : OutlineState := ⟨0, none, [], []⟩

/-- The lines, latest first, that begin inside the piece of `n` bytes at `offset`. The line on which
    the piece begins is shared with what stands before it. -/
def linesBegunIn (s : Source) (offset n : Nat) : List Nat :=
  let first := s.lineAt offset
  let last := s.lineAt (max (offset + n - 1) offset)
  (List.range' (first + 1) (last - first)).reverse

/-- One token further. Text is verbatim inside a verbatim element, a comment anywhere; a verbatim
    element is open from its start tag to the next end tag of its name. -/
def step (s : Source) (st : OutlineState) (t : Token) : OutlineState :=
  let n := t.raw.length
  let next := { st with offset := st.offset + n }
  let verbatim := { next with verbatim := linesBegunIn s st.offset n ++ st.verbatim }
  let tag : Tag := ⟨t.name, st.offset, attributes t.raw⟩
  match t.kind with
  | .startTag =>
    { next with
      tags := tag :: st.tags
      open? := if verbatimElements.contains t.name then some t.name else st.open? }
  | .selfClosingTag => { next with tags := tag :: st.tags }
  | .endTag => if st.open? = some t.name then { next with open? := none } else next
  | .text => if st.open?.isSome then verbatim else next
  | .comment => verbatim
  | .doctype => next

end OutlineState

/-- The outline of a document that is cut into tokens in this way. -/
def outlineWith (tokens : Bytes → List Token) (s : Source) : Outline :=
  let st := (tokens s.text).foldl (OutlineState.step s) OutlineState.start
  ⟨st.tags.reverse, st.verbatim.reverse⟩

/-- The outline of a document. -/
def outline (s : Source) : Outline := outlineWith tokens s

end MarkupLint.Markup
