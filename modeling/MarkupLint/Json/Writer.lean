/-
  Writing JSON texts, compactly: no blanks between tokens, and inside strings the characters that
  could be taken for markup (`<`, `>`, `&`) written as escapes, with the two line separators of
  Unicode and the controls.
-/
import MarkupLint.Json.Value

namespace MarkupLint.Json

/-- A hexadecimal digit, in lower case. -/
def hexDigit (n : Nat) : Char := Nat.digitChar (n % 16)

/-- A backslash, `u` and four hexadecimal digits. -/
def unicodeEscape (n : Nat) : List Char :=
  ['\\', 'u', hexDigit (n / 4096), hexDigit (n / 256), hexDigit (n / 16), hexDigit n]

/-- How one character stands inside a string. -/
def escapeChar (c : Char) : List Char :=
  if c = '"' then ['\\', '"'] else if c = '\\' then ['\\', '\\']
  else if c = '\x08' then ['\\', 'b'] else if c = '\x0c' then ['\\', 'f']
  else if c = '\n' then ['\\', 'n'] else if c = '\r' then ['\\', 'r']
  else if c = '\t' then ['\\', 't']
  else if c.val < 32 || c = '<' || c = '>' || c = '&' || c = '\u2028' || c = '\u2029' then
    unicodeEscape c.val.toNat
  else [c]

/-- A string with its quotes. -/
def renderString (s : String) : List Char := '"' :: s.toList.flatMap escapeChar ++ ['"']

mutual

/-- The characters of a value. -/
def renderChars : Json → List Char
  | .null => ['n', 'u', 'l', 'l']
  | .bool true => ['t', 'r', 'u', 'e']
  | .bool false => ['f', 'a', 'l', 's', 'e']
  | .num n => n.render
  | .str s => renderString s
  | .arr [] => ['[', ']']
  | .arr (v :: vs) => '[' :: renderChars v ++ renderElements vs
  | .obj [] => ['\x7b', '\x7d']
  | .obj ((k, v) :: ms) => '\x7b' :: renderString k ++ ':' :: renderChars v ++ renderMembers ms

/-- The further elements of a list and its end. -/
def renderElements : List Json → List Char
  | [] => [']']
  | v :: vs => ',' :: renderChars v ++ renderElements vs

/-- The further members of an object and its end. -/
def renderMembers : List (String × Json) → List Char
  | [] => ['\x7d']
  | (k, v) :: ms => ',' :: renderString k ++ ':' :: renderChars v ++ renderMembers ms

end

/-- The text of a value. -/
def render (v : Json) : String := String.ofList (renderChars v)

end MarkupLint.Json
