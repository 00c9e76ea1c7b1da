/-
  Arithmetic in words: expressions on 64-bit integers with variables, in the notation and with the
  precedences of C.
-/
import MarkupLint.Number.Word
import MarkupLint.Shell.State
import MarkupLint.Shell.Word

namespace MarkupLint.Shell.Arithmetic

open Ascii

/-- An expression. -/
inductive Expr where
  | number (n : Int)
  | parameter (name : Bytes)
  | unary (op : UInt8) (a : Expr)
  | binary (op : String) (a b : Expr)
  | choice (condition yes no : Expr)
  /-- assigns a value, joined with the old one by an operator if there is one -/
  | assign (op : Option String) (name : Bytes) (a : Expr)
  deriving Repr

/-- Why an expression has no value. -/
inductive ArithmeticError where
  | noPrimary
  | noEnd
  | noColon
  | noParenthesis
  | zeroDivision
  /-- a variable that holds no number -/
  | noNumber (text : Bytes)
  deriving DecidableEq, Repr

/-- The words of an error, about an expression. -/
def ArithmeticError.message (expression : Bytes) : ArithmeticError → Bytes
  | .noNumber text => Bytes.ofString "Illegal number: " ++ text
  | e =>
    let what := match e with
      | .noPrimary => "expecting primary"
      | .noEnd => "expecting EOF"
      | .noColon => "expecting ':'"
      | .noParenthesis => "expecting ')'"
      | _ => "division by zero"
    Bytes.ofString ("arithmetic expression: " ++ what ++ ": \"") ++ expression ++ [quote]

/-! ## Reading -/

/-- The value of a digit. -/
def digitValue (b : UInt8) : Nat :=
  if isDigit b then b.toNat - 48 else (lower b).toNat - 87

/-- A number in decimal, in octal behind a zero, or in hexadecimal behind `0x`, and what follows. -/
def unbounded (s : Bytes) : Int × Bytes :=
  let value (base : Nat) (ds : Bytes) : Int :=
    (ds.foldl (fun n b => n * base + digitValue b) 0 : Nat)
  let octal : Int × Bytes :=
    let ds := s.takeWhile fun b => 48 ≤ b && b ≤ 55
    (value 8 ds, s.drop ds.length)
  match s with
  | 48 :: x :: r =>
    let hex := r.takeWhile isHexDigit
    if lower x = 120 && !hex.isEmpty then (value 16 hex, r.drop hex.length) else octal
  | 48 :: _ => octal
  | _ =>
    let ds := s.takeWhile isDigit
    (value 10 ds, s.drop ds.length)

/-- A number that ends where the 64-bit range ends, and what follows. -/
def number (s : Bytes) : Int × Bytes :=
  let (n, rest) := unbounded s
  (min n max64, rest)

def isBlank (b : UInt8) : Bool := b = 32 || b = 9 || b = 10

/-- The binary operators with their precedences, the longest first. -/
def operators : List (String × Nat) :=
  [("<<", 8), (">>", 8), ("<=", 7), (">=", 7), ("==", 6), ("!=", 6), ("&&", 2), ("||", 1), ("<", 7),
   (">", 7), ("+", 9), ("-", 9), ("*", 10), ("/", 10), ("%", 10), ("&", 5), ("^", 4), ("|", 3)]

/-- The binary operator in front of a text, its precedence, and what follows. -/
def operator? (s : Bytes) : Option (String × Nat × Bytes) :=
  (operators.find? fun o => (Bytes.ofString o.1).isPrefixOf s).map fun (o, p) =>
    (o, p, s.drop o.utf8ByteSize)

/-- The operator of an assignment in front of a text, and what follows. -/
def assignment? (s : Bytes) : Option (Option String × Bytes) :=
  match s with
  | 61 :: r => if r.head? = some 61 then none else some (none, r)
  | _ =>
    (["<<", ">>", "+", "-", "*", "/", "%", "&", "^", "|"].find? fun o =>
      (Bytes.ofString (o ++ "=")).isPrefixOf s).map fun o => (some o, s.drop (o.utf8ByteSize + 1))

def dropBlanks (s : Bytes) : Bytes := s.dropWhile isBlank

mutual

/-- A whole expression, and what follows. -/
def expression : Nat → Bytes → Except ArithmeticError (Expr × Bytes)
  | 0, _ => .error .noPrimary
  | fuel + 1, s => do
    let s := dropBlanks s
    let name := if (s.head?.map isNameStart).getD false then s.takeWhile isNamePart else []
    match if name.isEmpty then none else assignment? (dropBlanks (s.drop name.length)) with
    | some (op, rest) =>
      let (a, rest) ← expression fuel rest
      pure (.assign op name a, rest)
    | none =>
      let (a, rest) ← joined fuel 1 s
      match dropBlanks rest with
      | 63 :: rest =>
        let (yes, rest) ← expression fuel rest
        match dropBlanks rest with
        | 58 :: rest =>
          let (no, rest) ← expression fuel rest
          pure (.choice a yes no, rest)
        | _ => .error .noColon
      | rest => pure (a, rest)

/-- Operands joined by operators of at least a precedence. -/
def joined : Nat → Nat → Bytes → Except ArithmeticError (Expr × Bytes)
  | 0, _, _ => .error .noPrimary
  | fuel + 1, least, s => do
    let (a, rest) ← operand fuel s
    further fuel least a rest

/-- The further operands after `a`. -/
def further : Nat → Nat → Expr → Bytes → Except ArithmeticError (Expr × Bytes)
  | 0, _, a, s => .ok (a, s)
  | fuel + 1, least, a, s =>
    match operator? (dropBlanks s) with
    | none => .ok (a, s)
    | some (op, precedence, rest) =>
      if precedence < least then .ok (a, s)
      else do
        let (b, rest) ← joined fuel (precedence + 1) rest
        further fuel least (.binary op a b) rest

/-- A number, a variable, an expression in parentheses, or one of these behind a sign. -/
def operand : Nat → Bytes → Except ArithmeticError (Expr × Bytes)
  | 0, _ => .error .noPrimary
  | fuel + 1, s =>
    match dropBlanks s with
    | [] => .error .noPrimary
    | b :: r =>
      if b = openParen then do
        let (a, rest) ← expression fuel r
        match dropBlanks rest with
        | c :: rest => if c = closeParen then pure (a, rest) else .error .noParenthesis
        | [] => .error .noParenthesis
      else if b = 43 || b = 45 || b = 33 || b = 126 then do
        let (a, rest) ← operand fuel r
        pure (.unary b a, rest)
      else if isDigit b then
        let (n, rest) := number (b :: r)
        .ok (.number n, rest)
      else if isNameStart b then
        let name := (b :: r).takeWhile isNamePart
        .ok (.parameter name, (b :: r).drop name.length)
      else .error .noPrimary

end

/-! ## Evaluation -/

def truth (b : Bool) : Int := if b then 1 else 0

/-- An operator of a bit in each place, on 64-bit words. -/
def onWords (f : UInt64 → UInt64 → UInt64) (a b : Int) : Int :=
  wrap64 (f (UInt64.ofInt a) (UInt64.ofInt b)).toNat

/-- The value of an operator that always looks at both operands. -/
def apply (op : String) (a b : Int) : Except ArithmeticError Int :=
  match op with
  | "+" => .ok (wrap64 (a + b))
  | "-" => .ok (wrap64 (a - b))
  | "*" => .ok (wrap64 (a * b))
  | "/" => if b = 0 then .error .zeroDivision else .ok (wrap64 (a.tdiv b))
  | "%" => if b = 0 then .error .zeroDivision else .ok (a.tmod b)
  | "<<" => .ok (onWords (fun x y => x <<< y) a b)
  | ">>" => .ok (a.shiftRight (b % 64).toNat)
  | "<" => .ok (truth (a < b))
  | ">" => .ok (truth (b < a))
  | "<=" => .ok (truth (a ≤ b))
  | ">=" => .ok (truth (b ≤ a))
  | "==" => .ok (truth (a = b))
  | "!=" => .ok (truth (a ≠ b))
  | "&" => .ok (onWords (· &&& ·) a b)
  | "^" => .ok (onWords (· ^^^ ·) a b)
  | _ => .ok (onWords (· ||| ·) a b)

/-- The number in a variable, zero when it is missing or empty. -/
def valueOf (st : State) (name : Bytes) : Except ArithmeticError Int :=
  let text := (st.lookup? name).getD []
  let trimmed := dropBlanks text
  let (negative, digits) := match trimmed with
    | 45 :: r => (true, r)
    | 43 :: r => (false, r)
    | r => (false, r)
  if text.isEmpty then .ok 0
  else if !(digits.head?.map isDigit).getD false then .error (.noNumber text)
  else
    let (n, rest) := number digits
    if !(dropBlanks rest).isEmpty then .error (.noNumber text) else .ok (if negative then -n else n)

/-- A number in decimal. -/
def showInt (n : Int) : Bytes :=
  Bytes.ofString (String.ofList ((if n < 0 then ['-'] else []) ++ Nat.toDigits 10 n.natAbs))

/-- The value of an expression, and the state after its assignments. -/
def eval (st : State) : Expr → Except ArithmeticError (State × Int)
  | .number n => .ok (st, n)
  | .parameter name => do pure (st, ← valueOf st name)
  | .unary op a => do
    let (st, n) ← eval st a
    pure (st, if op = 45 then wrap64 (-n) else if op = 33 then truth (n = 0)
      else if op = 126 then -n - 1 else n)
  | .binary op a b => do
    let (st, x) ← eval st a
    if op = "&&" then
      if x = 0 then pure (st, 0)
      else
        let (st, y) ← eval st b
        pure (st, truth (y ≠ 0))
    else if op = "||" then
      if x ≠ 0 then pure (st, 1)
      else
        let (st, y) ← eval st b
        pure (st, truth (y ≠ 0))
    else
      let (st, y) ← eval st b
      pure (st, ← apply op x y)
  | .choice c yes no => do
    let (st, n) ← eval st c
    if n ≠ 0 then eval st yes else eval st no
  | .assign op name a => do
    let (st, y) ← eval st a
    let n ← match op with
      | none => .ok y
      | some op => do apply op (← valueOf st name) y
    pure (st.assign name (showInt n), n)

/-- The value of the expression that a text spells. -/
def evaluate (st : State) (s : Bytes) : Except ArithmeticError (State × Int) := do
  let (e, rest) ← expression (4 * s.length + 4) s
  if !(dropBlanks rest).isEmpty then .error .noEnd
  eval st e

end MarkupLint.Shell.Arithmetic
