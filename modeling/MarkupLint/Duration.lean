/-
  Lengths of time in nanoseconds: how they are written and how they are read.
-/
import MarkupLint.Number.Power
import MarkupLint.Text.Ascii
import MarkupLint.Text.Bytes

namespace MarkupLint.Duration

/-! ## Writing -/

/-- A number with its last `places` digits behind the point, zeros at the end left out. -/
def decimal (n places : Nat) : List Char :=
  let low := Nat.toDigits 10 (n % pow10 places)
  let digits := List.replicate (places - low.length) '0' ++ low
  let kept := (digits.reverse.dropWhile (· == '0')).reverse
  Nat.toDigits 10 (n / pow10 places) ++ (if kept.isEmpty then [] else '.' :: kept)

/-- Below a second a duration is written in the largest unit that fits, else in hours, minutes and
    seconds from the first that is not zero on. -/
def chars (n : Nat) : List Char :=
  if n = 0 then ['0', 's']
  else if n < pow10 3 then decimal n 0 ++ ['n', 's']
  else if n < pow10 6 then decimal n 3 ++ ['µ', 's']
  else if n < pow10 9 then decimal n 6 ++ ['m', 's']
  else
    let minutes := n / (60 * pow10 9)
    let seconds := decimal (n % (60 * pow10 9)) 9 ++ ['s']
    if minutes = 0 then seconds
    else
      let below := Nat.toDigits 10 (minutes % 60) ++ 'm' :: seconds
      if minutes / 60 = 0 then below else Nat.toDigits 10 (minutes / 60) ++ 'h' :: below

/-- A duration in words. -/
def text (n : Int) : String := String.ofList ((if n < 0 then ['-'] else []) ++ chars n.natAbs)

example : text 120000000 = "120ms" ∧ text 90000000000 = "1m30s" ∧ text 1500 = "1.5µs" := by
  decide +kernel

/-! ## Reading -/

/-- A text in quotes: bytes that are no printing ASCII are written as their numbers. -/
def quoted (s : Bytes) : String :=
  let hex (n : Nat) : Char := if n < 10 then Char.ofNat (48 + n) else Char.ofNat (87 + n)
  let one (b : UInt8) : List Char :=
    if b < 32 || 128 ≤ b then ['\\', 'x', hex (b.toNat / 16), hex (b.toNat % 16)]
    else if b = 34 || b = 92 then ['\\', Char.ofNat b.toNat]
    else [Char.ofNat b.toNat]
  String.ofList ('"' :: s.flatMap one ++ ['"'])

/-- The length of a unit. -/
def unit? (u : Bytes) : Option Nat :=
  if u = Bytes.ofString "ns" then some 1
  else if u = Bytes.ofString "us" || u = Bytes.ofString "µs" || u = Bytes.ofString "μs" then
    some (pow10 3)
  else if u = Bytes.ofString "ms" then some (pow10 6)
  else if u = Bytes.ofString "s" then some (pow10 9)
  else if u = Bytes.ofString "m" then some (60 * pow10 9)
  else if u = Bytes.ofString "h" then some (3600 * pow10 9)
  else none

/-- Why a text is no duration. -/
inductive Flaw where
  | invalid
  | missingUnit
  | unknownUnit (u : Bytes)
  deriving DecidableEq, Repr

/-- What is said about a text that is no duration. -/
def Flaw.message (s : Bytes) : Flaw → String
  | .invalid => "time: invalid duration " ++ quoted s
  | .missingUnit => "time: missing unit in duration " ++ quoted s
  | .unknownUnit u => "time: unknown unit " ++ quoted u ++ " in duration " ++ quoted s

/-- The value of a run of digits. -/
def digitsValue (ds : Bytes) : Nat := ds.foldl (fun n b => n * 10 + (b.toNat - 48)) 0

/-- A byte that belongs to a number. -/
def isNumeric (b : UInt8) : Bool := Ascii.isDigit b || b = 46

/-- Reads one amount with its unit; the fraction is cut to whole nanoseconds. -/
def amount (s : Bytes) : Except Flaw (Nat × Bytes) :=
  let whole := s.takeWhile Ascii.isDigit
  let rest := s.dropWhile Ascii.isDigit
  let (fraction, rest) :=
    match rest with
    | 46 :: r => (r.takeWhile Ascii.isDigit, r.dropWhile Ascii.isDigit)
    | r => ([], r)
  if whole.isEmpty && fraction.isEmpty then .error .invalid
  else if pow2 63 < digitsValue whole then .error .invalid
  else
    let u := rest.takeWhile fun b => !isNumeric b
    if u.isEmpty then .error .missingUnit
    else
      match unit? u with
      | none => .error (.unknownUnit u)
      | some n =>
        .ok (digitsValue whole * n + digitsValue fraction * n / pow10 fraction.length,
          rest.dropWhile fun b => !isNumeric b)

/-- The sum of the amounts of a text; every amount takes at least one byte of it. -/
def amounts : Nat → Nat → Bytes → Except Flaw Nat
  | _, sum, [] => .ok sum
  | 0, _, _ :: _ => .error .invalid
  | fuel + 1, sum, b :: s =>
    match amount (b :: s) with
    | .error e => .error e
    | .ok (n, rest) =>
      if pow2 63 < sum + n then .error .invalid else amounts fuel (sum + n) rest

/-- The duration that a text spells: amounts with units, and a sign in front. -/
def ofBytes (s : Bytes) : Except Flaw Int :=
  let (negative, r) :=
    match s with
    | 45 :: r => (true, r)
    | 43 :: r => (false, r)
    | r => (false, r)
  if r = [48] then .ok 0
  else if r.isEmpty then .error .invalid
  else
    match amounts r.length 0 r with
    | .error e => .error e
    | .ok n =>
      if negative then .ok (-n) else if n < pow2 63 then .ok n else .error .invalid

example : (ofBytes (Bytes.ofString "1h2m3.5s")).toOption = some 3723500000000 := by decide +kernel

end MarkupLint.Duration
