/-
  A document text with a table of its lines, and the way from a byte offset to a line and a column.

  Lines are the pieces between newlines, counted from zero. Columns count UTF-16 code units from the
  start of the line, an undecodable byte counting as one.
-/
import MarkupLint.Text.Utf8

namespace MarkupLint.Markup

/-- A place in a document, both numbers from zero. -/
structure Place where
  line : Nat
  column : Nat
  deriving DecidableEq, Repr

/-- The offsets at which the given lines start, each line followed by a newline. -/
def startsFrom (start : Nat) : List Bytes → List Nat
  | [] => []
  | l :: ls => start :: startsFrom (start + l.length + 1) ls

/-- A document text, its lines and the offset at which each of them starts. -/
structure Source where
  text : Bytes
  lines : Array Bytes
  starts : Array Nat
  deriving DecidableEq, Repr

namespace Source

def ofText (text : Bytes) : Source :=
  let lines := Bytes.splitAt Bytes.newline text
  ⟨text, lines.toArray, (startsFrom 0 lines).toArray⟩

/-- Of the lines from `lo` up to but not including `hi`, the last one that starts at `offset` or
    before, when line `lo` does. -/
def searchLine (starts : Array Nat) (offset lo hi : Nat) : Nat :=
  if lo + 1 < hi then
    let mid := (lo + hi) / 2
    if (starts[mid]?.getD 0) ≤ offset then searchLine starts offset mid hi
    else searchLine starts offset lo mid
  else lo
termination_by hi - lo
decreasing_by all_goals omega

/-- The line that an offset lies on; the newline at the end of a line belongs to it. -/
def lineAt (s : Source) (offset : Nat) : Nat := searchLine s.starts offset 0 s.starts.size

/-- The place of an offset. -/
def place (s : Source) (offset : Nat) : Place :=
  let line := s.lineAt offset
  let start := s.starts[line]?.getD 0
  ⟨line, Utf8.units16 ((s.lines[line]?.getD []).take (offset - start))⟩

/-- The place of an offset that may lie outside of the text. -/
def place? (s : Source) (offset : Int) : Option Place :=
  if 0 ≤ offset ∧ offset ≤ (s.text.length : Int) then some (s.place offset.toNat) else none

end Source

example : (Source.ofText (Bytes.ofString "ab\n\ncd")).place 5 = ⟨2, 1⟩ := by decide +kernel
-- the newline itself still lies on the line that it ends
example : (Source.ofText (Bytes.ofString "ab\n\ncd")).place 2 = ⟨0, 2⟩ := by decide +kernel

end MarkupLint.Markup
