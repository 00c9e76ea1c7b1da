/-
  Reading the words of a script: quotes, parameters, substitutions and expressions.
-/
import MarkupLint.Shell.Command
import MarkupLint.Text.Ascii

namespace MarkupLint.Shell

open Ascii

/-- Why a script cannot be read on. What is unexpected may come with what was expected in its
    place. -/
inductive ScriptError where
  | openQuote
  | openBackquote
  | openBrace
  | openExpression
  | badLoopVariable
  | badFunctionName
  | unexpected (what : String) (expecting : Option String)
  deriving DecidableEq, Repr

def ScriptError.message : ScriptError → String
  | .openQuote => "Unterminated quoted string"
  | .openBackquote => "EOF in backquote substitution"
  | .openBrace => "Missing '\x7d'"
  | .openExpression => "Missing '))'"
  | .badLoopVariable => "Bad for loop variable"
  | .badFunctionName => "Bad function name"
  | .unexpected what none => what ++ " unexpected"
  | .unexpected what (some wanted) => what ++ " unexpected (expecting " ++ wanted ++ ")"

def backslash : UInt8 := 92
def dollar : UInt8 := 36
def backquote : UInt8 := 96
def openParen : UInt8 := 40
def closeParen : UInt8 := 41
def openBrace : UInt8 := 123
def closeBrace : UInt8 := 125

/-- A byte that ends a word. -/
def endsWord (b : UInt8) : Bool :=
  b = 32 || b = 9 || b = 10 || (Bytes.ofString ";&|<>()").contains b

def isNameStart (b : UInt8) : Bool := isLetter b || b = 95

def isNamePart (b : UInt8) : Bool := isNameStart b || isDigit b

/-- The text up to the bracket that closes what was opened, and what follows it. Quoted stretches
    are passed over, and further pairs of brackets are counted. -/
def balanced? (opening closing : UInt8) : Nat → Option UInt8 → Bytes → Option (Bytes × Bytes)
  | _, _, [] => none
  | depth, some q, b :: r =>
    if b = backslash && q = quote then
      match r with
      | c :: r' => (balanced? opening closing depth (some q) r').map fun (t, s) => (b :: c :: t, s)
      | [] => none
    else
      (balanced? opening closing depth (if b = q then none else some q) r).map fun (t, s) =>
        (b :: t, s)
  | depth, none, b :: r =>
    if b = backslash then
      match r with
      | c :: r' => (balanced? opening closing depth none r').map fun (t, s) => (b :: c :: t, s)
      | [] => none
    else if b = quote || b = apostrophe then
      (balanced? opening closing depth (some b) r).map fun (t, s) => (b :: t, s)
    else if b = opening then
      (balanced? opening closing (depth + 1) none r).map fun (t, s) => (b :: t, s)
    else if b = closing then
      match depth with
      | 0 => some ([], r)
      | d + 1 => (balanced? opening closing d none r).map fun (t, s) => (b :: t, s)
    else (balanced? opening closing depth none r).map fun (t, s) => (b :: t, s)

/-- The script between backquotes and what follows it. -/
def backquoted? : Bytes → Option (Bytes × Bytes)
  | [] => none
  | b :: r =>
    if b = backquote then some ([], r)
    else if b = backslash then
      match r with
      | c :: r' =>
        let lead := if c = backquote || c = backslash || c = dollar then [c] else [b, c]
        (backquoted? r').map fun (t, s) => (lead ++ t, s)
      | [] => none
    else (backquoted? r).map fun (t, s) => (b :: t, s)

/-- The parameters of one character. -/
def isSpecialParam (b : UInt8) : Bool := isDigit b || (Bytes.ofString "@*#?$!-").contains b

/-- The use that a mark behind a name asks for. -/
def markedUse? (orEmpty : Bool) (mark : UInt8) : Option ParamUse :=
  if mark = 45 then some (.fallback orEmpty)
  else if mark = 43 then some (.other orEmpty)
  else if mark = 61 then some (.assign orEmpty)
  else if mark = 63 then some (.demand orEmpty)
  else none

/-- What follows a name inside braces. -/
def paramUse? (s : Bytes) : Option (ParamUse × Bytes) :=
  match s with
  | [] => some (.value, [])
  | b :: r =>
    if b = 58 then
      match r with
      | mark :: arg => (markedUse? true mark).map (·, arg)
      | [] => none
    else if b = 35 then if r.head? = some 35 then some (.cutFront true, r.drop 1)
      else some (.cutFront false, r)
    else if b = 37 then if r.head? = some 37 then some (.cutBack true, r.drop 1)
      else some (.cutBack false, r)
    else (markedUse? false b).map (·, r)

/-- The parameter between braces. -/
def braced? (quoted : Bool) (s : Bytes) : Option Part :=
  match s with
  | [] => none
  | b :: r =>
    if b = 35 && !r.isEmpty && (r.all isNamePart || (r.length = 1 && r.all isSpecialParam)) then
      some (.param r .length [] quoted)
    else
      let name := if isNameStart b then s.takeWhile isNamePart
        else if isDigit b then s.takeWhile isDigit
        else if isSpecialParam b then [b] else []
      if name.isEmpty then none
      else (paramUse? (s.drop name.length)).map fun (use, arg) => .param name use arg quoted

/-- The text has words that begin a `case` which it does not end. -/
def opensCase (s : Bytes) : Bool :=
  let count (word : String) : Nat :=
    ((s.splitBy fun a b => !endsWord a && !endsWord b).filter (· == Bytes.ofString word)).length
  count "esac" < count "case"

/-- The script of a substitution and what follows its parenthesis. Parentheses in a `case` are not
    its end, if there is a later one. Every step takes a byte, which bounds `fuel`. -/
def scriptEnd? : Nat → Bytes → Bytes → Option (Bytes × Bytes)
  | 0, _, _ => none
  | fuel + 1, lead, s =>
    match balanced? openParen closeParen 0 none s with
    | none => none
    | some (t, rest) =>
      if opensCase (lead ++ t) then
        (scriptEnd? fuel (lead ++ t ++ [closeParen]) rest).or (some (lead ++ t, rest))
      else some (lead ++ t, rest)

/-- What a dollar sign begins, given what follows it, and what is left. -/
def expansion (quoted : Bool) (r : Bytes) : Except ScriptError (Part × Bytes) :=
  match r with
  | [] => .ok (.text [dollar] quoted, [])
  | b :: r' =>
    if b = openParen then
      let substitution : Except ScriptError (Part × Bytes) :=
        match scriptEnd? r.length [] r' with
        | some (script, rest) => .ok (.substitution script quoted, rest)
        | none => .error (.unexpected "end of file" (some "\")\""))
      if r'.head? = some openParen then
        match balanced? openParen closeParen 0 none (r'.drop 1) with
        | some (expression, c :: rest) =>
          if c = closeParen then .ok (.arithmetic expression quoted, rest) else substitution
        | _ => .error .openExpression
      else substitution
    else if b = openBrace then
      match balanced? openBrace closeBrace 0 none r' with
      | some (body, rest) =>
        if body.getLast? = some 58 && body.dropLast.all isNamePart then .error .openBrace
        else .ok ((braced? quoted body).getD .bad, rest)
      | none => .error .openBrace
    else if isNameStart b then
      let name := r.takeWhile isNamePart
      .ok (.param name .value [] quoted, r.drop name.length)
    else if isSpecialParam b then .ok (.param [b] .value [] quoted, r')
    else .ok (.text [dollar] quoted, r)

/-- Where the reader of a word is: outside of quotes, between double quotes, or in a text in which
    quotes mean nothing and only expansions count. -/
inductive Quoting where
  | none
  | double
  | text
  deriving DecidableEq, Repr

/-- The parts of a word up to its end, and what is left. Every part takes a byte, which bounds
    `fuel`. -/
def parts : Nat → Quoting → Bytes → Except ScriptError (Word × Bytes)
  | 0, _, s => .ok ([], s)
  | _ + 1, .double, [] => .error .openQuote
  | _ + 1, _, [] => .ok ([], [])
  | fuel + 1, q, b :: r =>
    let quoted := q ≠ .none
    let more (p : Part) (q : Quoting) (rest : Bytes) : Except ScriptError (Word × Bytes) :=
      (parts fuel q rest).map fun (w, s) => (p :: w, s)
    if b = quote && q ≠ .text then
      -- an empty part keeps a word that is quoted but empty
      more (.text [] true) (if q = .none then .double else .none) r
    else if b = dollar then
      match expansion quoted r with
      | .error e => .error e
      | .ok (p, rest) => more p q rest
    else if b = backquote then
      match backquoted? r with
      | none => .error .openBackquote
      | some (script, rest) => more (.substitution script quoted) q rest
    else if b = backslash then
      match r with
      | [] => more (.text [b] true) q []
      | c :: r' =>
        if c = 10 then parts fuel q r'
        else if quoted &&
          !((Bytes.ofString "$\x60\\").contains c || (c = quote && q = .double)) then
          more (.text [b, c] true) q r'
        else more (.text [c] true) q r'
    else if quoted then more (.text [b] true) q r
    else if b = apostrophe then
      let t := r.takeWhile (· != apostrophe)
      if t.length < r.length then more (.text t true) q (r.drop (t.length + 1))
      else .error .openQuote
    else if endsWord b then .ok ([], b :: r)
    else more (.text [b] false) q r

/-- The letters of a word in which nothing is quoted or expanded. -/
def bare? : Word → Option Bytes
  | [] => some []
  | .text s false :: w => (bare? w).map (s ++ ·)
  | _ :: _ => none

end MarkupLint.Shell
