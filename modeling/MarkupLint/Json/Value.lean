/-
  JSON values. Numbers keep the literal they were written as, because a reader may ask whether it
  was a plain integer, and members keep their order and their repetitions, because the last of two
  members of one name wins.
-/
import MarkupLint.Number.Shortest

namespace MarkupLint

/-- A number literal: sign, whole part, the digits after the point, the exponent. -/
structure JsonNumber where
  negative : Bool
  whole : Nat
  fraction : Option (List Char)
  exponent : Option Int
  deriving DecidableEq, Repr

/-- A JSON value. -/
inductive Json where
  | null
  | bool (b : Bool)
  | num (n : JsonNumber)
  | str (s : String)
  | arr (elements : List Json)
  | obj (members : List (String × Json))
  deriving Repr, Inhabited

namespace JsonNumber

/-- The literal of an integer. -/
def ofInt (n : Int) : JsonNumber := ⟨n < 0, n.natAbs, none, none⟩

/-- The integer that a literal without fraction and exponent denotes. -/
def toInt? (n : JsonNumber) : Option Int :=
  match n.fraction, n.exponent with
  | none, none => some (if n.negative then -(n.whole : Int) else n.whole)
  | _, _ => none

/-- The value of a run of decimal digits. -/
def digitsValue (start : Nat) (ds : List Char) : Nat :=
  ds.foldl (fun n c => n * 10 + (c.toNat - '0'.toNat)) start

/-- The double nearest to the number, or `none` when it is too large for one. -/
def toBinary64? (n : JsonNumber) : Option Binary64 :=
  let places := n.fraction.getD []
  Binary64.ofDecimal? n.negative (digitsValue n.whole places)
    (n.exponent.getD 0 - (places.length : Int))

/-- The literal as text. -/
def render (n : JsonNumber) : List Char :=
  (if n.negative then ['-'] else []) ++ Nat.toDigits 10 n.whole ++
  (match n.fraction with
    | none => []
    | some ds => '.' :: ds) ++
  (match n.exponent with
    | none => []
    | some e => 'e' :: (if e < 0 then ['-'] else []) ++ Nat.toDigits 10 e.natAbs)

end JsonNumber

namespace Json

/-- An integer as a JSON value. -/
def int (n : Int) : Json := .num (.ofInt n)

/-- The value of the last member called `name`. -/
def get? (name : String) : Json → Option Json
  | .obj members => (members.reverse.find? (·.1 == name)).map (·.2)
  | _ => none

end Json
end MarkupLint
