/-
  UTF-8 decoding with one rule for bad input: a byte that does not begin a well-formed sequence
  stands alone and reads as U+FFFD, and decoding goes on at the next byte.

  Main definitions: `sequence?` reads the well-formed sequence at the front of a text, `chars` the
  whole text, `units16` its length in UTF-16 code units.
-/
import MarkupLint.Text.Bytes

namespace MarkupLint
namespace Utf8

/-- What an undecodable byte reads as. -/
def replacement : Char := '�'

/-- A continuation byte, `10xxxxxx`. -/
def isContinuation (b : UInt8) : Bool := 0x80 ≤ b && b ≤ 0xBF

/-- The six bits that a continuation byte carries. -/
def payload (b : UInt8) : Nat := b.toNat % 64

/-- The bytes that may follow the lead byte `b` of a sequence of three or four: no overlong form, no
    surrogate, nothing above U+10FFFF. -/
def secondOk (b c : UInt8) : Bool :=
  if b = 0xE0 then 0xA0 ≤ c && c ≤ 0xBF
  else if b = 0xED then 0x80 ≤ c && c ≤ 0x9F
  else if b = 0xF0 then 0x90 ≤ c && c ≤ 0xBF
  else if b = 0xF4 then 0x80 ≤ c && c ≤ 0x8F
  else isContinuation c

/-- The character that `b`, followed by `r`, begins, and the number of bytes of `r` it takes;
    `none` when no well-formed sequence begins here. -/
def sequence? (b : UInt8) (r : Bytes) : Option (Char × Nat) :=
  if b < 0x80 then some (Char.ofNat b.toNat, 0)
  else if b < 0xC2 then none
  else if b < 0xE0 then
    match r with
    | c :: _ =>
      if isContinuation c then some (Char.ofNat (b.toNat % 32 * 64 + payload c), 1) else none
    | _ => none
  else if b < 0xF0 then
    match r with
    | c :: d :: _ =>
      if secondOk b c && isContinuation d then
        some (Char.ofNat ((b.toNat % 16 * 64 + payload c) * 64 + payload d), 2)
      else none
    | _ => none
  else if b < 0xF5 then
    match r with
    | c :: d :: e :: _ =>
      if secondOk b c && isContinuation d && isContinuation e then
        some (Char.ofNat (((b.toNat % 8 * 64 + payload c) * 64 + payload d) * 64 + payload e), 3)
      else none
    | _ => none
  else none

/-- Decoding with `skip` bytes of a sequence still to be passed over. -/
def charsFrom : Nat → Bytes → List Char
  | _, [] => []
  | n + 1, _ :: r => charsFrom n r
  | 0, b :: r =>
    match sequence? b r with
    | some (c, n) => c :: charsFrom n r
    | none => replacement :: charsFrom 0 r

/-- The characters of a text, U+FFFD for each undecodable byte. -/
def chars (s : Bytes) : List Char := charsFrom 0 s

/-- The UTF-16 code units of one character: two above U+FFFF, else one. -/
def width16 (c : Char) : Nat := if 0xFFFF < c.val.toNat then 2 else 1

/-- The UTF-16 code units of characters. -/
def totalWidth16 : List Char → Nat
  | [] => 0
  | c :: cs => width16 c + totalWidth16 cs

/-- The length of a text in UTF-16 code units, an undecodable byte counting as one. -/
def units16 (s : Bytes) : Nat := totalWidth16 (chars s)

example : chars [0x61, 0xC3, 0xA9, 0xFF, 0xF0, 0x9F, 0x98, 0x80] = ['a', 'é', '�', '😀'] := by
  decide
-- a surrogate written in three bytes is three undecodable bytes
example : chars [0xED, 0xA0, 0x80] = ['�', '�', '�'] := by decide
example : units16 [0xF0, 0x9F, 0x98, 0x80] = 2 := by decide

end Utf8

/-- The text as characters, U+FFFD for each undecodable byte. -/
def Bytes.toText (s : Bytes) : String := String.ofList (Utf8.chars s)

end MarkupLint
