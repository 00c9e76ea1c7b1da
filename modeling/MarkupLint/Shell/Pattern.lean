/-
  Shell patterns: `*` is any text, `?` any byte, `[…]` one of some bytes, `[!…]` any other. Bytes
  that were quoted stand for themselves.
-/
import MarkupLint.Text.Ascii

namespace MarkupLint.Shell

/-- A byte of a field, and whether it was quoted. -/
structure Mark where
  byte : UInt8
  quoted : Bool
  deriving DecidableEq, Repr

inductive PatternItem where
  | byte (b : UInt8)
  | any
  | star
  | set (negated : Bool) (ranges : List (UInt8 × UInt8))
  deriving DecidableEq, Repr

def Mark.is (m : Mark) (b : UInt8) : Bool := m.byte = b && !m.quoted

/-- The ranges of a set up to its closing bracket, and how many marks they take. -/
def setRanges? (first : Bool) : List Mark → Option (List (UInt8 × UInt8) × Nat)
  | [] => none
  | a :: b :: c :: r =>
    if a.is 93 && !first then some ([], 1)
    else if b.is 45 && !c.is 93 then
      (setRanges? false r).map fun (rs, n) => ((a.byte, c.byte) :: rs, n + 3)
    else (setRanges? false (b :: c :: r)).map fun (rs, n) => ((a.byte, a.byte) :: rs, n + 1)
  | a :: r =>
    if a.is 93 && !first then some ([], 1)
    else (setRanges? false r).map fun (rs, n) => ((a.byte, a.byte) :: rs, n + 1)

/-- The items of a pattern, with `skip` marks of the last one still to be passed over. -/
def patternFrom : Nat → List Mark → List PatternItem
  | _, [] => []
  | n + 1, _ :: r => patternFrom n r
  | 0, m :: r =>
    if m.is 42 then .star :: patternFrom 0 r
    else if m.is 63 then .any :: patternFrom 0 r
    else if m.is 91 then
      let negated := (r.head?.map fun c => c.is 33 || c.is 94).getD false
      match setRanges? true (if negated then r.drop 1 else r) with
      | some (rs, n) => .set negated rs :: patternFrom (n + if negated then 1 else 0) r
      | none => .byte m.byte :: patternFrom 0 r
    else .byte m.byte :: patternFrom 0 r

def pattern (ms : List Mark) : List PatternItem := patternFrom 0 ms

def PatternItem.accepts (b : UInt8) : PatternItem → Bool
  | .byte c => b = c
  | .any | .star => true
  | .set negated rs => (rs.any fun (lo, hi) => lo ≤ b && b ≤ hi) != negated

/-- The pattern matches the whole text. -/
def patternAccepts : List PatternItem → Bytes → Bool
  | [], s => s.isEmpty
  | .star :: ps, [] => patternAccepts ps []
  | .star :: ps, b :: r => patternAccepts ps (b :: r) || patternAccepts (.star :: ps) r
  | _ :: _, [] => false
  | p :: ps, b :: r => p.accepts b && patternAccepts ps r

end MarkupLint.Shell
