/-
  Sets of code points, as the Unicode character data gives them: mostly ranges, and runs of every
  second code point where capitals and small letters take turns.

  A set is written down as words with blanks between, in hexadecimal digits: `41` is one code point,
  `41-5a` all from one to another, and `100:136` every second one from one to another.
-/
import MarkupLint.Text.Bytes

namespace MarkupLint

/-- Code points from the first to the last, in steps. -/
structure CodeRange where
  first : Nat
  last : Nat
  step : Nat := 1
  deriving DecidableEq, Repr

namespace CodeRange

def covers (r : CodeRange) (n : Nat) : Bool :=
  r.first ≤ n && n ≤ r.last && (n - r.first) % r.step == 0

def single (n : Nat) : CodeRange := ⟨n, n, 1⟩

/-- The characters from one to another. -/
def between (a b : Char) : CodeRange := ⟨a.toNat, b.toNat, 1⟩

/-- The value of hexadecimal digits with small letters. -/
def hexValue (ds : Bytes) : Nat :=
  ds.foldl (fun n d => n * 16 + (if d < 58 then d.toNat - 48 else d.toNat - 87)) 0

/-- The range that a word writes down. -/
def ofWord (w : Bytes) : CodeRange :=
  match Bytes.splitAt 45 w, Bytes.splitAt 58 w with
  | [a, b], _ => ⟨hexValue a, hexValue b, 1⟩
  | _, [a, b] => ⟨hexValue a, hexValue b, 2⟩
  | _, _ => single (hexValue w)

end CodeRange

/-- A set of code points. -/
abbrev CodeSet := List CodeRange

namespace CodeSet

def covers (s : CodeSet) (n : Nat) : Bool := s.any (·.covers n)

/-- The set that lines of words write down. -/
def ofLines (ls : List String) : CodeSet :=
  ls.flatMap fun l => (Bytes.splitAt 32 (Bytes.ofString l)).map CodeRange.ofWord

example : ofLines ["41-5a b5", "100:136"] =
    [⟨0x41, 0x5A, 1⟩, ⟨0xB5, 0xB5, 1⟩, ⟨0x100, 0x136, 2⟩] := by decide +kernel

end CodeSet
end MarkupLint
