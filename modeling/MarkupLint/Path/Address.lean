/-
  Addresses of hosts, as they stand in brackets in a URI: eight groups of hexadecimal digits with
  colons between. Two colons stand for the groups that are missing, the last two groups may be
  written as four decimal numbers with dots between, and behind a percent sign a zone may follow.
-/
import MarkupLint.Text.Ascii

namespace MarkupLint.Address

open Ascii

def colon : UInt8 := 58
def dot : UInt8 := 46
def percent : UInt8 := 37

/-- One of the four numbers: at most 255, without a zero in front. -/
def isOctet (s : Bytes) : Bool :=
  1 ≤ s.length && s.length ≤ 3 && s.all isDigit && (s.length = 1 || s.head? ≠ some 48) &&
  s.foldl (fun n b => n * 10 + (b.toNat - 48)) 0 ≤ 255

/-- Four decimal numbers with dots between. -/
def isDotted (s : Bytes) : Bool :=
  let numbers := Bytes.splitAt dot s
  numbers.length = 4 && numbers.all isOctet

/-- One to four hexadecimal digits. -/
def isGroup (s : Bytes) : Bool := 1 ≤ s.length && s.length ≤ 4 && s.all isHexDigit

/-- The number of groups in a text of groups with colons between; `none` when it is no such text.
    Decimal numbers count as two groups, and may stand last if `dotted` says so. -/
def groupCount? (dotted : Bool) (s : Bytes) : Option Nat :=
  if s.isEmpty then some 0
  else
    let groups := Bytes.splitAt colon s
    if groups.all isGroup then some groups.length
    else if dotted && groups.dropLast.all isGroup && (groups.getLast?.map isDotted).getD false then
      some (groups.length + 1)
    else none

/-- An address without a zone. -/
def isPlain (s : Bytes) : Bool :=
  match Bytes.cut? [colon, colon] s with
  | none => groupCount? true s = some 8
  | some (lead, rest) =>
    match groupCount? false lead, groupCount? true rest with
    | some m, some n => m + n ≤ 7
    | _, _ => false

/-- An address, with or without a zone; a zone is not empty. -/
def isAddress (s : Bytes) : Bool :=
  match Bytes.cut? [percent] s with
  | none => isPlain s
  | some (address, zone) => isPlain address && !zone.isEmpty

example : isAddress (Bytes.ofString "::ffff:1.2.3.4") = true := by decide +kernel
example : isAddress (Bytes.ofString "fe80::1%en0") = true := by decide +kernel
example : isAddress (Bytes.ofString "1.2.3.4") = false := by decide +kernel
example : isAddress (Bytes.ofString "1:2:3:4:5:6:7:8::") = false := by decide +kernel

end MarkupLint.Address
