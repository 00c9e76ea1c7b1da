/-
  Double-precision numbers as exact values.

  A configuration number is a 64-bit binary floating-point number. It is kept here as what it
  denotes, `mantissa · 2 ^ exponent`, so that every test on it is arithmetic on natural numbers.
  Main definitions: `ofDecimal?` rounds a decimal to the nearest double, ties to even;
  `natural?` is the integer a double denotes, if it denotes one that is not negative.
-/
import MarkupLint.Number.Power

namespace MarkupLint

/-- A double: not a number, an infinity, or a finite value with its sign. -/
inductive Binary64 where
  | nan
  | infinite (negative : Bool)
  | finite (negative : Bool) (mantissa : Nat) (exponent : Int)
  deriving DecidableEq, Repr

namespace Binary64

/-- The quotient rounded to the nearest integer, a tie to the even one. -/
def roundDiv (n d : Nat) : Nat :=
  let q := n / d
  let r := n % d
  if 2 * r < d then q else if d < 2 * r then q + 1 else if q % 2 = 0 then q else q + 1

/-- The least exponent of a double, that of the smallest positive one. -/
def minExponent : Int := -1074

/-- The greatest exponent of a double with a full mantissa of 53 bits. -/
def maxExponent : Int := 971

/-- The exponent at which the positive value `n / d` has 53 bits before the point, as far as the
    least exponent allows. -/
def scale (n d : Nat) : Int :=
  let guess : Int := (n.log2 : Int) - (d.log2 : Int) - 52
  -- the guess is off by one when the leading bits of `n` lie below those of `d`
  let fits := if 0 ≤ guess then d * pow2 guess.toNat * pow2 52 ≤ n
    else d * pow2 52 ≤ n * pow2 (-guess).toNat
  let e := if fits then guess else guess - 1
  if e < minExponent then minExponent else e

/-- The double nearest to `n / d`, or `none` beyond the largest one. -/
def ofRatio? (negative : Bool) (n d : Nat) : Option Binary64 :=
  if n = 0 then some (.finite negative 0 minExponent)
  else
    let e := scale n d
    let m := if 0 ≤ e then roundDiv n (d * pow2 e.toNat) else roundDiv (n * pow2 (-e).toNat) d
    let (m, e) := if m = pow2 53 then (pow2 52, e + 1) else (m, e)
    if maxExponent < e then none else some (.finite negative m e)

/-- The double nearest to `digits · 10 ^ exponent`, or `none` beyond the largest one. Values that
    are far out of range are settled by their number of digits, without the powers. -/
def ofDecimal? (negative : Bool) (digits : Nat) (exponent : Int) : Option Binary64 :=
  if digits = 0 then some (.finite negative 0 minExponent)
  else
    let size : Int := ((Nat.toDigits 10 digits).length : Int) + exponent
    if 400 < size then none
    else if size < -400 then some (.finite negative 0 minExponent)
    else if 0 ≤ exponent then ofRatio? negative (digits * pow10 exponent.toNat) 1
    else ofRatio? negative digits (pow10 (-exponent).toNat)

/-- The integer that the value denotes, when it is one and not below zero. Both zeros count. -/
def natural? : Binary64 → Option Nat
  | .finite negative m e =>
    if m = 0 then some 0
    else if negative then none
    else if 0 ≤ e then some (m * pow2 e.toNat)
    else if m % pow2 (-e).toNat = 0 then some (m / pow2 (-e).toNat)
    else none
  | _ => none

/-- The value of an integer, rounded. -/
def ofInt? (n : Int) : Option Binary64 := ofRatio? (n < 0) n.natAbs 1

example : (ofDecimal? false 15 (-1)).bind natural? = none := by decide +kernel
example : (ofDecimal? false 200 (-2)).bind natural? = some 2 := by decide +kernel
-- 2^53 + 1 lies between two doubles and goes to the even one
example : (ofDecimal? false 9007199254740993 0).bind natural? = some 9007199254740992 := by
  decide +kernel
example : ofDecimal? false 1 400 = none := by decide +kernel

end Binary64
end MarkupLint
