/-
  Quoted texts as they stand in error and log messages: double quotes around, `"` and `\` escaped,
  the usual letters for the common controls, `\x` for other ASCII controls and undecodable bytes,
  `\u` and `\U` for what is not printable.
-/
import MarkupLint.Text.Printable
import MarkupLint.Text.Utf8

namespace MarkupLint.Quoted

/-- The lower-case hexadecimal digits of `n`, at least `width` of them. -/
def hex (width n : Nat) : List Char :=
  let ds := Nat.toDigits 16 n
  List.replicate (width - ds.length) '0' ++ ds

/-- How one character stands inside the quotes. -/
def escape (c : Char) : List Char :=
  if c = '"' then ['\\', '"']
  else if c = '\\' then ['\\', '\\']
  else if Printable.ofChar c then [c]
  else
    let n := c.val.toNat
    if n = 7 then ['\\', 'a'] else if n = 8 then ['\\', 'b'] else if n = 12 then ['\\', 'f']
    else if n = 10 then ['\\', 'n'] else if n = 13 then ['\\', 'r'] else if n = 9 then ['\\', 't']
    else if n = 11 then ['\\', 'v']
    else if n < 32 || n = 127 then ['\\', 'x'] ++ hex 2 n
    else if n < 0x10000 then ['\\', 'u'] ++ hex 4 n
    else ['\\', 'U'] ++ hex 8 n

/-- The string in quotes. -/
def ofString (s : String) : String := String.ofList (['"'] ++ s.toList.flatMap escape ++ ['"'])

/-- Decoding as in `Utf8.charsFrom`, an undecodable byte written as `\x` and two digits. -/
def escapeFrom : Nat → Bytes → List Char
  | _, [] => []
  | n + 1, _ :: r => escapeFrom n r
  | 0, b :: r =>
    match Utf8.sequence? b r with
    | some (c, n) => escape c ++ escapeFrom n r
    | none => ['\\', 'x'] ++ hex 2 b.toNat ++ escapeFrom 0 r

/-- The text in quotes. -/
def ofBytes (s : Bytes) : String := String.ofList (['"'] ++ escapeFrom 0 s ++ ['"'])

example : ofString "a\"\n\x01" = "\"a\\\"\\n\\x01\"" := by decide

end MarkupLint.Quoted
