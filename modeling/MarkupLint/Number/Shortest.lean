/-
  The shortest decimal that denotes a double: the fewest digits that read back as the same double,
  and of those decimals the one nearest to it, a tie to the even last digit.

  A decimal reads back exactly when it lies in the interval of reals that round to the double. For
  1, 2, … 17 digits the two neighbours of the value on the decimal grid of that many digits are
  tested in whole-number arithmetic; the first grid with a hit wins.
-/
import MarkupLint.Number.Binary64

namespace MarkupLint

/-- The number `0.d₁d₂… · 10 ^ point`, up to sign: `digits` without leading or trailing zeros, empty
    for zero. -/
structure Decimal where
  negative : Bool
  digits : List Char
  point : Int
  deriving DecidableEq, Repr

namespace Shortest

/-- `a · 2 ^ i ≤ b · 10 ^ j`, all exponents whole numbers of either sign. -/
def le (a : Nat) (i : Int) (b : Nat) (j : Int) : Bool :=
  a * pow2 i.toNat * pow10 (-j).toNat ≤ b * pow10 j.toNat * pow2 (-i).toNat

/-- `a · 2 ^ i < b · 10 ^ j`. -/
def lt (a : Nat) (i : Int) (b : Nat) (j : Int) : Bool :=
  a * pow2 i.toNat * pow10 (-j).toNat < b * pow10 j.toNat * pow2 (-i).toNat

/-- `c · 10 ^ j` lies in the interval of reals that round to `m · 2 ^ e`. Its ends are the midpoints
    to the neighbouring doubles, and they belong to it when `m` is even. -/
def readsBack (m : Nat) (e : Int) (c : Nat) (j : Int) : Bool :=
  let even := m % 2 = 0
  -- four quarters to a unit: below a power of two the next double is only half a unit away
  let low := if m = pow2 52 ∧ Binary64.minExponent < e then 4 * m - 1 else 4 * m - 2
  let high := 4 * m + 2
  let above := if even then le low (e - 2) c j else lt low (e - 2) c j
  let below := if even then !lt high (e - 2) c j else !le high (e - 2) c j
  above && below

/-- The number of digits of the value before the decimal point; zero or less for leading zeros. -/
def magnitude (m : Nat) (e : Int) : Int :=
  let big := m * pow10 400 * pow2 e.toNat / pow2 (-e).toNat
  ((Nat.toDigits 10 big).length : Int) - 400

/-- The largest `c` with `c · 10 ^ j ≤ m · 2 ^ e`. -/
def floorAt (m : Nat) (e j : Int) : Nat :=
  m * pow2 e.toNat * pow10 (-j).toNat / (pow2 (-e).toNat * pow10 j.toNat)

/-- The neighbour of the value on the grid `10 ^ j` that reads back, the nearer one of two, and of
    two equally near ones the even one. -/
def neighbour? (m : Nat) (e j : Int) : Option Nat :=
  let c := floorAt m e j
  match readsBack m e c j, readsBack m e (c + 1) j with
  | true, true =>
    let down := if c % 2 = 0 then le (2 * m) e (2 * c + 1) j else lt (2 * m) e (2 * c + 1) j
    some (if down then c else c + 1)
  | true, false => some c
  | false, true => some (c + 1)
  | false, false => none

/-- The first grid that has a neighbour which reads back: its digits and its exponent. -/
def search (m : Nat) (e k : Int) : List Nat → Nat × Int
  | [] => (floorAt m e (k - 17), k - 17)
  | n :: ns =>
    match neighbour? m e (k - n) with
    | some c => (c, k - n)
    | none => search m e k ns

/-- The digits of `c` without the zeros at the end. -/
def significant (c : Nat) : List Char :=
  ((Nat.toDigits 10 c).reverse.dropWhile (· == '0')).reverse

/-- The shortest decimal of `± m · 2 ^ e`. -/
def ofFinite (negative : Bool) (m : Nat) (e : Int) : Decimal :=
  if m = 0 then ⟨negative, [], 0⟩
  else
    let (c, j) := search m e (magnitude m e) [1, 2, 3, 4, 5, 6, 7, 8, 9, 10, 11, 12, 13, 14, 15, 16,
      17]
    ⟨negative, significant c, ((Nat.toDigits 10 c).length : Int) + j⟩

end Shortest

/-- How a decimal is laid out: positional for the exponents (of `d.ddd · 10 ^ x`) from `low` up to
    but not including `high`, else with an exponent of at least `places` digits. -/
structure DecimalLayout where
  low : Int
  high : Int
  places : Nat

namespace Decimal

/-- The digits with a point after `point` of them, zeros filled in on either side. -/
def positional (digits : List Char) (point : Int) : List Char :=
  if digits.isEmpty then ['0']
  else if point ≤ 0 then ['0', '.'] ++ List.replicate (-point).toNat '0' ++ digits
  else
    let whole := digits.take point.toNat
    let rest := digits.drop point.toNat
    whole ++ List.replicate (point.toNat - digits.length) '0' ++
      (if rest.isEmpty then [] else '.' :: rest)

/-- The digits as `d.ddd`, an exponent mark and a signed exponent. -/
def scientific (places : Nat) (digits : List Char) (exponent : Int) : List Char :=
  let ds := Nat.toDigits 10 exponent.natAbs
  let tail := digits.drop 1
  digits.take 1 ++ (if tail.isEmpty then [] else '.' :: tail) ++
    ['e', if exponent < 0 then '-' else '+'] ++ List.replicate (places - ds.length) '0' ++ ds

/-- The decimal written in the given layout. -/
def render (layout : DecimalLayout) (d : Decimal) : String :=
  let exponent := d.point - 1
  let body :=
    if d.digits.isEmpty || (layout.low ≤ exponent && exponent < layout.high) then
      positional d.digits d.point
    else scientific layout.places d.digits exponent
  String.ofList ((if d.negative then ['-'] else []) ++ body)

end Decimal
end MarkupLint
