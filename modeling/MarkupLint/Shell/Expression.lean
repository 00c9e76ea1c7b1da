/-
  The regular expressions of text tools, on bytes. There are two notations: in the basic one
  brackets, bars and counts need a backslash to mean something, in the extended one they need one to
  mean nothing.
-/
import MarkupLint.Pattern.Reader
import MarkupLint.Text.Bytes

namespace MarkupLint.Shell.Expression

/-- Bytes as characters, one for one. -/
def latin (s : Bytes) : List Char := s.map fun b => Char.ofNat b.toNat

/-- Characters back as bytes. -/
def unlatin (s : List Char) : Bytes := s.map fun c => UInt8.ofNat c.toNat

/-- A character that stands for itself. -/
def literal (c : Char) : List Char :=
  if c.isAlphanum || 127 < c.toNat || c = '\n' || c = ' ' then [c] else ['\\', c]

/-- The inside of a set up to its bracket, and what follows. A backslash is nothing special in it.
    Every step takes a character, which bounds `fuel`. -/
def setBody? (first : Bool) : Nat → List Char → Option (List Char × List Char)
  | 0, _ => none
  | _, [] => none
  | fuel + 1, c :: r =>
    if c = ']' && !first then some ([c], r)
    else
      let named := c = '[' && r.head? = some ':'
      let (lead, rest) := if named then
          let name := (r.drop 1).takeWhile (· ≠ ':')
          ('[' :: ':' :: name ++ [':', ']'], r.drop (name.length + 3))
        else if c = '\\' || c = '[' || c = ']' then (['\\', c], r)
        else ([c], r)
      (setBody? false fuel rest).map fun (t, s) => (lead ++ t, s)

/-- An expression while it is brought to the notation of `Pattern.Matcher`. -/
structure Draft where
  /-- what there is already, the last character first -/
  done : List Char := []
  /-- the number of groups so far -/
  groups : Nat := 0
  /-- nothing stands before, so that there is nothing to repeat -/
  start : Bool := true

namespace Draft

def add (d : Draft) (s : List Char) : Draft :=
  { d with done := s.reverse ++ d.done, start := false }

/-- Opens a group, which gets a name so that it is kept. -/
def openGroup (d : Draft) : Draft :=
  let n := d.groups + 1
  { d with
    done := ("(?P<g" ++ toString n ++ ">").toList.reverse ++ d.done
    groups := n
    start := true }

/-- Adds an operator in front of which nothing may stand. -/
def bar (d : Draft) : Draft := { d.add ['|'] with start := true }

/-- A character behind a backslash that is no operator. -/
def escaped (d : Draft) (c : Char) : Option Draft :=
  if c = 'n' then some (d.add ['\\', 'n'])
  else if c = 't' then some (d.add ['\\', 't'])
  else if "wWsSbB".toList.contains c then some (d.add ['\\', c])
  else if c = '<' || c = '>' then some (d.add ['\\', 'b'])
  else if c.isDigit then none
  else some (d.add (literal c))

/-- A count up to its closing brace, and what follows. -/
def count? (basic : Bool) (r : List Char) : Option (List Char × List Char) :=
  let body := r.takeWhile fun c => c.isDigit || c = ','
  let close := if basic then ['\\', '\x7d'] else ['\x7d']
  if close.isPrefixOf (r.drop body.length) && !body.isEmpty then
    some ('\x7b' :: body ++ ['\x7d'], r.drop (body.length + close.length))
  else none

/-- Carries out an operator, given what follows it; `none` in the outer place when it is none. -/
def operator? (d : Draft) (basic : Bool) (c : Char) (r : List Char) :
    Option (Option (Draft × List Char)) :=
  if c = '(' then some (some (d.openGroup, r))
  else if c = ')' then some (some (d.add [')'], r))
  else if c = '|' then some (some (d.bar, r))
  else if c = '+' || c = '?' then some (some (if d.start then d.add ['\\', c] else d.add [c], r))
  else if c = '\x7b' then some ((count? basic r).map fun (t, rest) => (d.add t, rest))
  else none

/-- Reads a character of an expression; `none` when the expression is wrong. -/
def step? (d : Draft) (extended : Bool) (c : Char) (r : List Char) : Option (Draft × List Char) :=
  if c = '\\' then
    match r with
    | [] => none
    | e :: r' =>
      match if extended then none else d.operator? true e r' with
      | some result => result
      | none => (d.escaped e).map (·, r')
  else if c = '[' then
    let negated := r.head? = some '^'
    (setBody? true (r.length + 1) (if negated then r.drop 1 else r)).map fun (t, rest) =>
      (d.add ('[' :: (if negated then ['^'] else []) ++ t), rest)
  else if c = '*' then some (if d.start then d.add ['\\', '*'] else d.add ['*'], r)
  else if c = '.' then some (d.add ['.'], r)
  else if c = '^' then
    some (if extended || d.start then { d.add ['^'] with start := true } else d.add ['\\', '^'], r)
  else if c = '$' then
    let ends := extended || r.isEmpty || "\\)".toList.isPrefixOf r || "\\|".toList.isPrefixOf r
    some (d.add (if ends then ['$'] else ['\\', '$']), r)
  else
    match if extended then d.operator? false c r else none with
    | some result => result
    | none => some (d.add (literal c), r)

/-- Reads an expression to its end. Every step takes a character, which bounds `fuel`. -/
def readFrom (extended : Bool) : Nat → Draft → List Char → Option Draft
  | 0, _, _ => none
  | _, d, [] => some d
  | fuel + 1, d, c :: r =>
    match d.step? extended c r with
    | some (d, rest) => readFrom extended fuel d rest
    | none => none

end Draft

/-- The matcher of an expression. What it matches is its first capture, and its groups follow. -/
def matcher? (extended folded : Bool) (s : Bytes) : Option Pattern.Matcher := do
  let d ← Draft.readFrom extended (s.length + 1) {} (latin s)
  let flags := if folded then "(?i)".toList else []
  Pattern.Matcher.ofText? (flags ++ "(?P<all>".toList ++ d.done.reverse ++ [')'])

/-- A place in a text: where it begins and where it ends. -/
abbrev Span := Nat × Nat

/-- The first match in a text from a place on, and its groups. -/
def find? (m : Pattern.Matcher) (text : List Char) (start : Nat) :
    Option (Span × List (Option Span)) :=
  let before := if start = 0 then none else text[start - 1]?
  (Pattern.search m.program start before [] none (text.drop start)).bind fun saved =>
    let place (slot : Nat) : Option Nat := (saved.find? fun s => s.1 == slot).map fun s => s.2
    let span (n : Nat) : Option Span := do pure (← place (2 * n), ← place (2 * n + 1))
    (span 0).map fun hit => (hit, (List.range (m.names.length - 1)).map fun n => span (n + 1))

/-- All matches in a text, none of them inside another, and none of them empty right behind another.
    Every match takes the search further, which bounds `fuel`. -/
def findAll (m : Pattern.Matcher) (text : List Char) : Nat → Nat → Option Nat →
    List (Span × List (Option Span))
  | 0, _, _ => []
  | fuel + 1, start, last =>
    if text.length < start then []
    else
      match find? m text start with
      | none => []
      | some ((a, b), groups) =>
        if a = b then
          let rest := findAll m text fuel (b + 1) last
          if last = some a then rest else ((a, b), groups) :: rest
        else ((a, b), groups) :: findAll m text fuel b (some b)

end MarkupLint.Shell.Expression
