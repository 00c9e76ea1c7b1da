/-
  Printing arguments: as they are, or filled into a format.
-/
import MarkupLint.Shell.Arithmetic

namespace MarkupLint.Shell

/-! ## Escapes -/

/-- Up to `n` octal digits: their value and their number. -/
def octalOf (value taken : Nat) : Nat → Bytes → Nat × Nat
  | n + 1, b :: r =>
    if 48 ≤ b && b ≤ 55 then octalOf (value * 8 + (b.toNat - 48)) (taken + 1) n r
    else (value, taken)
  | _, _ => (value, taken)

/-- The byte that a backslash and a letter stand for. -/
def controlOf? (b : UInt8) : Option UInt8 :=
  if b = 97 then some 7 else if b = 98 then some 8 else if b = 101 then some 27
  else if b = 102 then some 12 else if b = 110 then some 10 else if b = 114 then some 13
  else if b = 116 then some 9 else if b = 118 then some 11 else if b = 92 then some 92 else none

/-- The byte that a backslash stands for, given what follows it, and how much of that it takes. In
    arguments a zero may stand in front of three octal digits. -/
def escape (format : Bool) (r : Bytes) : UInt8 × Nat :=
  match r with
  | [] => (92, 0)
  | c :: r' =>
    match controlOf? c with
    | some x => (x, 1)
    | none =>
      if c = 48 && !format then
        let (v, n) := octalOf 0 0 3 r'
        (UInt8.ofNat v, n + 1)
      else if 48 ≤ c && c ≤ 55 then
        let (v, n) := octalOf 0 0 3 r
        (UInt8.ofNat v, n)
      else (92, 0)

/-- An argument with its escapes replaced, and whether `\c` ended it. `skip` bytes of the last
    escape are still to be passed over. -/
def unescape : Nat → Bytes → Bytes × Bool
  | _, [] => ([], false)
  | n + 1, _ :: r => unescape n r
  | 0, b :: r =>
    if b = backslash && r.head? = some 99 then ([], true)
    else
      let (x, n) := if b = backslash then escape false r else (b, 0)
      let (t, stop) := unescape n r
      (x :: t, stop)

/-! ## echo -/

def joinBlank : List Bytes → Bytes
  | [] => []
  | [a] => a
  | a :: as => a ++ 32 :: joinBlank as

def echo (st : State) (args : List Bytes) : State :=
  let (newline, args) := match args with
    | a :: as => if a = Bytes.ofString "-n" then (false, as) else (true, args)
    | [] => (true, [])
  let (t, stop) := unescape 0 (joinBlank args)
  (st.write 1 (t ++ if newline && !stop then [10] else [])).withStatus 0

/-! ## Numbers -/

/-- A number in front of a text, with blanks and a sign before it, and what follows it. -/
def leadingNumber? (s : Bytes) : Option (Int × Bytes) :=
  let t := s.dropWhile Ascii.isSpace
  let (negative, r) := match t with
    | 45 :: r => (true, r)
    | 43 :: r => (false, r)
    | r => (false, r)
  if !(r.head?.map Ascii.isDigit).getD false then none
  else
    let (n, rest) := Arithmetic.unbounded r
    some (if negative then -n else n, rest)

/-- The number that an argument gives, and what is wrong with it. A quote in front of a character
    stands for its code. -/
def numericArgument (arg : Bytes) : Int × Option String :=
  match arg with
  | [] => (0, none)
  | q :: r =>
    if q = Ascii.quote || q = Ascii.apostrophe then ((r.head?.map (·.toNat)).getD 0, none)
    else
      match leadingNumber? arg with
      | none => (0, some "expected numeric value")
      | some (n, rest) =>
        if !rest.isEmpty then (n, some "not completely converted")
        else if fits64 n then (n, none)
        else (if n < 0 then min64 else max64, some "Numerical result out of range")

/-! ## Formats -/

/-- A conversion of a format. -/
structure Conversion where
  flags : Bytes
  width : Nat
  places : Option Nat
  letter : UInt8

namespace Conversion

def has (c : Conversion) (flag : UInt8) : Bool := c.flags.contains flag

/-- A text brought to the width. -/
def pad (c : Conversion) (s : Bytes) : Bytes :=
  let fill := List.replicate (c.width - s.length) (32 : UInt8)
  if c.has Ascii.dash then s ++ fill else fill ++ s

/-- Digits brought to the places and to the width, with a sign or another mark in front. -/
def padDigits (c : Conversion) (sign digits : Bytes) : Bytes :=
  let digits := List.replicate ((c.places.getD 0) - digits.length) (48 : UInt8) ++ digits
  let zeros := if c.has 48 && !c.has Ascii.dash && c.places.isNone then
    c.width - sign.length - digits.length else 0
  c.pad (sign ++ List.replicate zeros (48 : UInt8) ++ digits)

/-- The number in the notation of the conversion. -/
def number (c : Conversion) (n : Int) : Bytes :=
  let digits (base n : Nat) : Bytes := Bytes.ofString (String.ofList (Nat.toDigits base n))
  let word : Nat := (n % 18446744073709551616).toNat
  let marked (s : String) : Bytes := if c.has 35 && word ≠ 0 then Bytes.ofString s else []
  if c.letter = 120 then c.padDigits (marked "0x") (digits 16 word)
  else if c.letter = 88 then c.padDigits (marked "0X") ((digits 16 word).map Ascii.upper)
  else if c.letter = 111 then c.padDigits (marked "0") (digits 8 word)
  else if c.letter = 117 then c.padDigits [] (digits 10 word)
  else
    let sign := if n < 0 then [Ascii.dash] else if c.has 43 then [43]
        else if c.has 32 then [32] else []
    c.padDigits sign (digits 10 n.natAbs)

end Conversion

/-- A format that is being filled. -/
structure Filling where
  text : Bytes := []
  arguments : List Bytes
  /-- the format takes arguments -/
  used : Bool := false
  /-- nothing more is printed -/
  stopped : Bool := false
  complaints : List Bytes := []
  status : Nat := 0

namespace Filling

def add (f : Filling) (s : Bytes) : Filling := { f with text := f.text ++ s }

/-- The next argument. -/
def next (f : Filling) : Bytes × Filling :=
  (f.arguments.head?.getD [], { f with arguments := f.arguments.tail, used := true })

/-- The next argument as a number. -/
def nextNumber (f : Filling) : Int × Filling :=
  let (a, f) := f.next
  match numericArgument a with
  | (n, none) => (n, f)
  | (n, some why) =>
    (n, { f with complaints := f.complaints ++ [a ++ Bytes.ofString (": " ++ why)], status := 1 })

/-- The format is wrong. -/
def refuse (f : Filling) (why : Bytes) : Filling :=
  { f with complaints := f.complaints ++ [why], status := 2, stopped := true }

/-- A number in a conversion, or `*` for the next argument: the value and the number of bytes. -/
def size (f : Filling) (s : Bytes) : Option Int × Nat × Filling :=
  if s.head? = some 42 then
    let (n, f) := f.nextNumber
    (some n, 1, f)
  else
    let ds := s.takeWhile Ascii.isDigit
    (if ds.isEmpty then none else some (ds.foldl (fun n b => n * 10 + (b.toNat - 48)) 0 : Nat),
      ds.length, f)

/-- Carries out a conversion. -/
def convert (f : Filling) (c : Conversion) : Filling :=
  if c.letter = 115 then
    let (a, f) := f.next
    f.add (c.pad (match c.places with
      | some n => a.take n
      | none => a))
  else if c.letter = 98 then
    let (a, f) := f.next
    let (t, stop) := unescape 0 a
    { f.add (c.pad t) with stopped := stop }
  else if c.letter = 99 then
    let (a, f) := f.next
    f.add (c.pad [a.head?.getD 0])
  else
    let (n, f) := f.nextNumber
    f.add (c.number n)

/-- Carries out the conversion behind a percent sign, and says how many bytes it takes. -/
def conversion (f : Filling) (r : Bytes) : Filling × Nat :=
  let flags := r.takeWhile fun b => (Bytes.ofString "#-+ 0").contains b
  let (width, n, f) := f.size (r.drop flags.length)
  let taken := flags.length + n
  let (places, n, f) : Option Nat × Nat × Filling :=
    if (r.drop taken).head? = some 46 then
      let (p, n, f) := f.size (r.drop (taken + 1))
      (some (p.getD 0).toNat, n + 1, f)
    else (none, 0, f)
  let taken := taken + n
  match r.drop taken with
  | [] => (f.refuse (Bytes.ofString "missing format character"), taken)
  | letter :: _ =>
    if (Bytes.ofString "sbcdiouxX").contains letter then
      let width := width.getD 0
      let flags := if width < 0 then Ascii.dash :: flags else flags
      (f.convert ⟨flags, width.natAbs, places, letter⟩, taken + 1)
    else
      (f.refuse (37 :: r.take (taken + 1) ++ Bytes.ofString ": invalid directive"), taken + 1)

/-- Fills a format once, the arguments in order. `skip` bytes of the last conversion or escape are
    still to be passed over. -/
def fill : Nat → Bytes → Filling → Filling
  | _, [], f => f
  | n + 1, _ :: r, f => fill n r f
  | 0, b :: r, f =>
    if f.stopped then f
    else if b = backslash then
      let (x, n) := escape true r
      fill n r (f.add [x])
    else if b = 37 then
      if r.head? = some 37 then fill 1 r (f.add [37])
      else
        let (f, n) := f.conversion r
        fill n r f
    else fill 0 r (f.add [b])

/-- Fills a format again and again until no argument is left. -/
def fillAll (format : Bytes) : Nat → Filling → Filling
  | 0, f => f
  | fuel + 1, f =>
    let f := fill 0 format { f with used := false }
    if f.used && !f.stopped && !f.arguments.isEmpty then fillAll format fuel f else f

end Filling

def printf (st : State) (args : List Bytes) : State :=
  let complain (st : State) (s : Bytes) : State := st.complain (Bytes.ofString "printf: " ++ s)
  let formatted (args : List Bytes) : State :=
    match args with
    | [] => (complain st (Bytes.ofString "usage: printf format [arg ...]")).withStatus 2
    | format :: args =>
      let f := Filling.fillAll format (args.length + 1) { arguments := args }
      ((f.complaints.foldl complain st).write 1 f.text).withStatus f.status
  match args with
  | a :: rest =>
    if a = Bytes.ofString "--" then formatted rest
    else
      match a with
      | 45 :: c :: _ => (complain st (Bytes.ofString "Illegal option -" ++ [c])).withStatus 2
      | _ => formatted args
  | [] => formatted []

end MarkupLint.Shell
