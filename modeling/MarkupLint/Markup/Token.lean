/-
  Markup tokens: the consecutive pieces of a document, told apart by what they begin with.

  Everything here works on bytes and finds the *length* of the piece at the front of a text. The
  tokens are then cut off one after the other, so their raw texts put together are the document,
  up to a tag at its end that is never closed, which is no token.
-/
import MarkupLint.Text.Ascii

namespace MarkupLint.Markup

open Ascii

inductive TokenKind where
  | text
  | startTag
  /-- a start tag that ends in `/>` -/
  | selfClosingTag
  | endTag
  | comment
  | doctype
  deriving DecidableEq, Repr

/-- A piece of a document. `name` is the lower-case element name of a tag, empty for other kinds. -/
structure Token where
  kind : TokenKind
  raw : Bytes
  name : Bytes
  deriving DecidableEq, Repr

/-! ## Tags -/

/-- Where in a tag the reader is, after its opening `<` or `</`. -/
inductive TagState where
  | name
  /-- between attributes -/
  | gap
  | key
  /-- blanks after a key, which may still be followed by `=` -/
  | afterKey
  /-- after `=`, before the value -/
  | beforeValue
  | quoted (q : UInt8)
  | unquoted
  /-- after the closing `>` -/
  | closed
  deriving DecidableEq, Repr

/-- One byte further. An `=` where a key begins belongs to the key; a `/` outside a value only
    separates; inside an unquoted value it is part of the value. -/
def TagState.next : TagState → UInt8 → TagState
  | .name, b =>
    if b = greaterThan then .closed else if isSpace b || b = slash then .gap else .name
  | .gap, b =>
    if b = greaterThan then .closed else if isSpace b || b = slash then .gap else .key
  | .key, b =>
    if b = greaterThan then .closed else if b = equals then .beforeValue
    else if b = slash then .gap else if isSpace b then .afterKey else .key
  | .afterKey, b =>
    if b = greaterThan then .closed else if b = equals then .beforeValue
    else if b = slash then .gap else if isSpace b then .afterKey else .key
  | .beforeValue, b =>
    if b = greaterThan then .closed else if isSpace b then .beforeValue
    else if b = quote || b = apostrophe then .quoted b else .unquoted
  | .quoted q, b => if b = q then .gap else .quoted q
  | .unquoted, b => if b = greaterThan then .closed else if isSpace b then .gap else .unquoted
  | .closed, _ => .closed

/-- How many bytes of `s` the rest of a tag takes, its `>` included; `none` when `s` ends first. -/
def tagLength? (st : TagState) : Bytes → Option Nat
  | [] => none
  | b :: r =>
    match st.next b with
    | .closed => some 1
    | st' => (tagLength? st' r).map (· + 1)

/-- A byte of an element name. -/
def isNameByte (b : UInt8) : Bool := !(isSpace b || b = slash || b = greaterThan)

/-- The lower-case element name at the front of `s`, which follows `<` or `</`. -/
def elementName (s : Bytes) : Bytes := lowerAll (s.takeWhile isNameByte)

/-! ## Comments and declarations -/

/-- How many bytes of `s` lie before and including the first `>`, all of them when there is none. -/
def throughAngle : Bytes → Nat
  | [] => 0
  | b :: r => if b = greaterThan then 1 else throughAngle r + 1

/-- How far a comment has been read: the dashes seen last, whether only dashes were seen since its
    beginning, and whether `--!` was seen last. -/
structure CommentState where
  dashes : Nat
  beginning : Bool
  bang : Bool

/-- How many bytes of `s` the rest of a comment takes after `<!--`. It ends at `-->`, at `--!>`, at
    a `>` that follows nothing but dashes, or with the text. -/
def commentLength (st : CommentState) : Bytes → Nat
  | [] => 0
  | b :: r =>
    if st.bang then
      if b = greaterThan then 1
      else if b = dash then commentLength ⟨1, false, false⟩ r + 1
      else commentLength ⟨0, false, false⟩ r + 1
    else if b = dash then commentLength ⟨st.dashes + 1, st.beginning, false⟩ r + 1
    else if b = greaterThan && (2 ≤ st.dashes || st.beginning) then 1
    else if b = bang && 2 ≤ st.dashes then commentLength ⟨st.dashes, st.beginning, true⟩ r + 1
    else commentLength ⟨0, false, false⟩ r + 1

/-- The kind and the length of what follows `<!`. -/
def declaration (s : Bytes) : TokenKind × Nat :=
  match s with
  | a :: b :: r =>
    if a = dash && b = dash then (.comment, commentLength ⟨0, true, false⟩ r + 2)
    else if startsWithWord (Bytes.ofString "doctype") s then (.doctype, throughAngle (s.drop 7) + 7)
    else (.comment, throughAngle s)
  | _ => (.comment, s.length)

/-! ## Raw text -/

/-- The elements whose content is read as one piece of text. -/
def rawTextElements : List Bytes :=
  ["iframe", "noembed", "noframes", "noscript", "plaintext", "script", "style", "textarea", "title",
   "xmp"].map Bytes.ofString

/-- The byte that ends an element name. -/
def endsName (b : UInt8) : Bool := !isNameByte b

/-- `s` starts with `word`, letter case aside, and a byte that ends a name. -/
def startsWithName (word s : Bytes) : Bool :=
  startsWithWord word s && ((s.drop word.length).head?.map endsName).getD false

/-- `s` starts with the end tag of the element `name`, at least up to the end of its name. -/
def startsWithEndTag (name s : Bytes) : Bool :=
  match s with
  | a :: b :: r => a = lessThan && b = slash && startsWithName name r
  | _ => false

/-- How many bytes of `s` lie before the end tag of `name`, all of them when there is none. -/
def beforeEndTag (name : Bytes) : Bytes → Nat
  | [] => 0
  | b :: r => if startsWithEndTag name (b :: r) then 0 else beforeEndTag name r + 1

/-- Where in the content of a script the reader is. Inside `<!-- … -->` a script is escaped, and
    inside a further `<script>` there it is escaped twice: then an end tag does not end it. -/
inductive ScriptState where
  | data | lessThan
  | escapeStart | escapeStartDash
  | escaped | escapedDash | escapedDashDash | escapedLessThan
  | double | doubleDash | doubleDashDash | doubleLessThan
  deriving DecidableEq, Repr

/-- The script is escaped twice. -/
def ScriptState.isDouble : ScriptState → Bool
  | .double | .doubleDash | .doubleDashDash | .doubleLessThan => true
  | _ => false

def scriptName : Bytes := Bytes.ofString "script"

/-- One byte further; `r` is what follows it. In three states a byte that does not continue an
    opening is read as ordinary content, and an element name is passed over as content once it is
    found. -/
def ScriptState.next (st : ScriptState) (b : UInt8) (r : Bytes) : ScriptState :=
  let inData := if b = Ascii.lessThan then ScriptState.lessThan else .data
  let inEscaped := if b = dash then ScriptState.escapedDash
    else if b = Ascii.lessThan then .escapedLessThan else .escaped
  let inDouble := if b = dash then ScriptState.doubleDash
    else if b = Ascii.lessThan then .doubleLessThan else .double
  match st with
  | .data => inData
  | .lessThan => if b = bang then .escapeStart else if b = slash then .data else inData
  | .escapeStart => if b = dash then .escapeStartDash else inData
  | .escapeStartDash => if b = dash then .escapedDashDash else inData
  | .escaped => inEscaped
  | .escapedDash => if b = dash then .escapedDashDash else inEscaped
  | .escapedDashDash =>
    if b = dash then .escapedDashDash else if b = greaterThan then .data else inEscaped
  | .escapedLessThan =>
    if b = slash then .escaped
    else if isLetter b then if startsWithName scriptName (b :: r) then .double else .escaped
    else inData
  | .double => inDouble
  | .doubleDash => if b = dash then .doubleDashDash else inDouble
  | .doubleDashDash =>
    if b = dash then .doubleDashDash else if b = greaterThan then .data else inDouble
  | .doubleLessThan =>
    if b = slash then if startsWithName scriptName r then .escaped else .double else inDouble

/-- How many bytes of `s` the rest of a script's content takes. -/
def scriptLength (st : ScriptState) : Bytes → Nat
  | [] => 0
  | b :: r =>
    if !st.isDouble && startsWithEndTag scriptName (b :: r) then 0
    else scriptLength (st.next b r) r + 1

/-- The length of the text that follows the start tag of a raw-text element. -/
def rawTextLength (name s : Bytes) : Nat :=
  if name = Bytes.ofString "plaintext" then s.length
  else if name = scriptName then scriptLength .data s
  else beforeEndTag name s

/-! ## Tokens -/

/-- The byte after `<` that makes it markup rather than text. -/
def opensMarkup (b : UInt8) : Bool := isLetter b || b = slash || b = bang || b = question

/-- How many bytes of `s` are text before the first markup. A `<` that opens nothing is text. -/
def textLength : Bytes → Nat
  | [] => 0
  | b :: r =>
    if b = lessThan && (r.head?.map opensMarkup).getD false then 0 else textLength r + 1

/-- The first token of `s` that is no raw text: its kind, its length and its element name. `none` at
    the end of the text and in front of a tag that is never closed. -/
def markup? (s : Bytes) : Option (TokenKind × Nat × Bytes) :=
  match s with
  | a :: b :: r =>
    if a ≠ lessThan || !opensMarkup b then some (.text, textLength s, [])
    else if isLetter b then
      (tagLength? .name (b :: r)).map fun n =>
        let kind := if (r.drop (n - 3)).head? = some slash && 3 ≤ n then .selfClosingTag
            else .startTag
        (kind, n + 1, elementName (b :: r))
    else if b = slash then
      match r with
      | [] => some (.text, 2, [])
      | c :: _ =>
        if c = greaterThan then some (.comment, 3, [])
        else if isLetter c then
          (tagLength? .name r).map fun n => (.endTag, n + 2, elementName r)
        else some (.comment, throughAngle r + 2, [])
    else if b = bang then
      let (kind, n) := declaration r
      some (kind, n + 2, [])
    else some (.comment, throughAngle (b :: r) + 1, [])
  | [_] => some (.text, 1, [])
  | [] => none

/-- The first token of `s`. `open?` is the raw-text element whose start tag came just before. -/
def next? (open? : Option Bytes) (s : Bytes) : Option (TokenKind × Nat × Bytes) :=
  match open? with
  | none => markup? s
  | some name =>
    match rawTextLength name s with
    | 0 => markup? s
    | n => some (.text, n, [])

/-- The raw-text element that a token opens. -/
def opens? (kind : TokenKind) (name : Bytes) : Option Bytes :=
  match kind with
  | .startTag | .selfClosingTag => if rawTextElements.contains name then some name else none
  | _ => none

/-- The tokens of `s`. A token that takes no byte would end the document. -/
def tokensFrom (open? : Option Bytes) (s : Bytes) : List Token :=
  match next? open? s with
  | none => []
  | some (kind, n, name) =>
    if n = 0 ∨ s = [] then []
    else ⟨kind, s.take n, name⟩ :: tokensFrom (opens? kind name) (s.drop n)
termination_by s.length
decreasing_by
  rename_i h
  rw [List.length_drop]
  have := List.length_pos_iff.mpr (fun e => h (.inr e))
  omega

/-- The tokens of a document. -/
def tokens (s : Bytes) : List Token := tokensFrom none s

end MarkupLint.Markup
