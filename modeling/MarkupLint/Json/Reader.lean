/-
  Reading JSON texts, strictly: no comments, no trailing commas, no leading zeros, no control
  characters inside strings, nothing but space, tab, line feed and carriage return between tokens,
  and nothing after the value.

  A text is read in two passes. `lex` cuts it into tokens, and a token reader says how many
  characters it took. `State.step` then feeds the tokens one by one to a machine that holds the
  containers still open on a stack, so nothing here recurses on the depth of the value.
-/
import MarkupLint.Json.Value
import MarkupLint.Text.Utf8

namespace MarkupLint.Json

/-- Containers may be nested this deep. -/
def maxDepth : Nat := 10000

inductive Token where
  | openBrace | closeBrace | openBracket | closeBracket | colon | comma
  | null
  | bool (b : Bool)
  | num (n : JsonNumber)
  | str (s : List Char)
  deriving DecidableEq, Repr

/-! ## Tokens -/

/-- The white space of JSON. -/
def isGap (c : Char) : Bool := c = ' ' || c = '\t' || c = '\n' || c = '\r'

def isDigit (c : Char) : Bool := '0' ≤ c && c ≤ '9'

/-- The value of a hexadecimal digit. -/
def hexValue? (c : Char) : Option Nat :=
  if '0' ≤ c && c ≤ '9' then some (c.toNat - '0'.toNat)
  else if 'a' ≤ c && c ≤ 'f' then some (c.toNat - 'a'.toNat + 10)
  else if 'A' ≤ c && c ≤ 'F' then some (c.toNat - 'A'.toNat + 10)
  else none

/-- The value of four hexadecimal digits. -/
def hex4? (a b c d : Char) : Option Nat := do
  let a ← hexValue? a
  let b ← hexValue? b
  let c ← hexValue? c
  let d ← hexValue? d
  pure (((a * 16 + b) * 16 + c) * 16 + d)

/-- The first half of a surrogate pair. -/
def isHigh (n : Nat) : Bool := 0xD800 ≤ n && n < 0xDC00

/-- The second half of a surrogate pair. -/
def isLow (n : Nat) : Bool := 0xDC00 ≤ n && n < 0xE000

/-- The character of a surrogate pair. -/
def pair (high low : Nat) : Char := Char.ofNat (0x10000 + (high - 0xD800) * 0x400 + (low - 0xDC00))

/-- What a backslash and one letter stand for. -/
def simpleEscape? (c : Char) : Option Char :=
  if c = '"' then some '"' else if c = '\\' then some '\\' else if c = '/' then some '/'
  else if c = 'b' then some '\x08' else if c = 'f' then some '\x0c' else if c = 'n' then some '\n'
  else if c = 'r' then some '\r' else if c = 't' then some '\t' else none

/-- What stands for the first half of a surrogate pair whose second half did not come. -/
def stray (half : Option Nat) : List Char := if half.isSome then [Utf8.replacement] else []

/-- The rest of a string after its opening quote: its characters and how many characters of the text
    it takes, the closing quote included. `half` is the first half of a surrogate pair when that was
    read last; a half without its partner reads as U+FFFD. -/
def string? (half : Option Nat) : List Char → Option (List Char × Nat)
  | [] => none
  | '"' :: _ => some (stray half, 1)
  | '\\' :: 'u' :: a :: b :: c :: d :: r =>
    match hex4? a b c d with
    | none => none
    | some n =>
      if isHigh n then (string? (some n) r).map fun (s, k) => (stray half ++ s, k + 6)
      else if isLow n then
        match half with
        | some m => (string? none r).map fun (s, k) => (pair m n :: s, k + 6)
        | none => (string? none r).map fun (s, k) => (Utf8.replacement :: s, k + 6)
      else (string? none r).map fun (s, k) => (stray half ++ Char.ofNat n :: s, k + 6)
  | '\\' :: e :: r =>
    match simpleEscape? e with
    | none => none
    | some c => (string? none r).map fun (s, k) => (stray half ++ c :: s, k + 2)
  | c :: r =>
    if c.val < 32 || c = '\\' then none
    else (string? none r).map fun (s, k) => (stray half ++ c :: s, k + 1)

/-- The whole part of a number: a single zero, or digits that do not start with one. -/
def whole? (s : List Char) : Option (List Char) :=
  match s.takeWhile isDigit with
  | [] => none
  | '0' :: _ => some ['0']
  | ds => some ds

/-- The exponent part of a number, if there is one: the exponent and the characters it takes. -/
def exponent? (s : List Char) : Option (Option Int × Nat) :=
  match s with
  | c :: r =>
    if c = 'e' || c = 'E' then
      let (negative, r, k) : Bool × List Char × Nat := match r with
        | '-' :: r' => (true, r', 2)
        | '+' :: r' => (false, r', 2)
        | _ => (false, r, 1)
      match r.takeWhile isDigit with
      | [] => none
      | ds =>
        let n : Int := JsonNumber.digitsValue 0 ds
        some (some (if negative then -n else n), k + ds.length)
    else some (none, 0)
  | [] => some (none, 0)

/-- The fraction part of a number, if there is one. -/
def fraction? (s : List Char) : Option (Option (List Char) × Nat) :=
  match s with
  | '.' :: r =>
    match r.takeWhile isDigit with
    | [] => none
    | ds => some (some ds, ds.length + 1)
  | _ => some (none, 0)

/-- A number at the front of the text and how many characters it takes. -/
def number? (s : List Char) : Option (JsonNumber × Nat) := do
  let (negative, s, k) : Bool × List Char × Nat := match s with
    | '-' :: r => (true, r, 1)
    | _ => (false, s, 0)
  let ds ← whole? s
  let s := s.drop ds.length
  let (fraction, f) ← fraction? s
  let (exponent, e) ← exponent? (s.drop f)
  pure (⟨negative, JsonNumber.digitsValue 0 ds, fraction, exponent⟩, k + ds.length + f + e)

/-- The token that begins with `c`, followed by `r`, and how many characters of `r` it takes. -/
def token? (c : Char) (r : List Char) : Option (Token × Nat) :=
  if c = '\x7b' then some (.openBrace, 0)
  else if c = '\x7d' then some (.closeBrace, 0)
  else if c = '[' then some (.openBracket, 0)
  else if c = ']' then some (.closeBracket, 0)
  else if c = ':' then some (.colon, 0)
  else if c = ',' then some (.comma, 0)
  else if c = '"' then (string? none r).map fun (s, k) => (.str s, k)
  else if c = 'n' then if ['u', 'l', 'l'].isPrefixOf r then some (.null, 3) else none
  else if c = 't' then if ['r', 'u', 'e'].isPrefixOf r then some (.bool true, 3) else none
  else if c = 'f' then if ['a', 'l', 's', 'e'].isPrefixOf r then some (.bool false, 4) else none
  else (number? (c :: r)).map fun (n, k) => (.num n, k - 1)

/-- The tokens of a text, with `skip` characters of the last token still to be passed over. -/
def lexFrom : Nat → List Char → Option (List Token)
  | _, [] => some []
  | n + 1, _ :: r => lexFrom n r
  | 0, c :: r =>
    if isGap c then lexFrom 0 r
    else match token? c r with
      | none => none
      | some (t, n) => (lexFrom n r).map (t :: ·)

/-- The tokens of a text, or `none` when it holds something that is no token. -/
def lex (s : List Char) : Option (List Token) := lexFrom 0 s

/-! ## Values -/

/-- A container that is still open, its parts so far in reverse order. -/
inductive Frame where
  | arr (done : List Json)
  | obj (done : List (String × Json))
  | member (done : List (String × Json)) (key : String)
  deriving Repr

/-- What may come next, with the open containers innermost first. -/
inductive State where
  /-- a value -/
  | value (stack : List Frame)
  /-- a value or the end of an empty list -/
  | element (stack : List Frame)
  /-- a comma or the end of the innermost container -/
  | next (stack : List Frame)
  /-- a member name or the end of an empty object -/
  | key (stack : List Frame)
  /-- a member name -/
  | nextKey (stack : List Frame)
  /-- a colon -/
  | colon (stack : List Frame)
  /-- the end of the text -/
  | finished (v : Json)
  deriving Repr

/-- The state after a value is complete. -/
def State.complete (v : Json) : List Frame → State
  | [] => .finished v
  | .arr done :: stack => .next (.arr (v :: done) :: stack)
  | .member done k :: stack => .next (.obj ((k, v) :: done) :: stack)
  | .obj done :: stack => .next (.obj done :: stack)

/-- The state after the first token of a value. -/
def State.start (stack : List Frame) : Token → Option State
  | .null => some (.complete .null stack)
  | .bool b => some (.complete (.bool b) stack)
  | .num n => some (.complete (.num n) stack)
  | .str s => some (.complete (.str (String.ofList s)) stack)
  | .openBracket => if stack.length < maxDepth then some (.element (.arr [] :: stack)) else none
  | .openBrace => if stack.length < maxDepth then some (.key (.obj [] :: stack)) else none
  | _ => none

/-- One token further; `none` when the token cannot stand here. -/
def State.step : State → Token → Option State
  | .value stack, t => State.start stack t
  | .element (.arr _ :: stack), .closeBracket => some (.complete (.arr []) stack)
  | .element stack, t => State.start stack t
  | .next (.arr done :: stack), .comma => some (.value (.arr done :: stack))
  | .next (.arr done :: stack), .closeBracket => some (.complete (.arr done.reverse) stack)
  | .next (.obj done :: stack), .comma => some (.nextKey (.obj done :: stack))
  | .next (.obj done :: stack), .closeBrace => some (.complete (.obj done.reverse) stack)
  | .key (.obj _ :: stack), .closeBrace => some (.complete (.obj []) stack)
  | .key (.obj done :: stack), .str k => some (.colon (.member done (String.ofList k) :: stack))
  | .nextKey (.obj done :: stack), .str k => some (.colon (.member done (String.ofList k) :: stack))
  | .colon stack, .colon => some (.value stack)
  | _, _ => none

/-- The value that a list of tokens spells. -/
def ofTokens? (ts : List Token) : Option Json :=
  match ts.foldlM State.step (State.value []) with
  | some (.finished v) => some v
  | _ => none

/-- The value that a text spells, or `none` when it is not JSON. -/
def ofChars? (s : List Char) : Option Json := (lex s).bind ofTokens?

/-- The value that a stored text spells; undecodable bytes inside its strings read as U+FFFD. -/
def ofBytes? (s : Bytes) : Option Json := ofChars? (Utf8.chars s)

end MarkupLint.Json
