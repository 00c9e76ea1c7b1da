/-
  Reading commands. A script is read and run line by line, so what cannot be read stands in the way
  only of what follows it.
-/
import MarkupLint.Shell.Token
import MarkupLint.Text.Utf8

namespace MarkupLint.Shell

open Ascii

/-- The words that mean something where a command begins. -/
def reserved : List Bytes :=
  ["if", "then", "elif", "else", "fi", "case", "esac", "for", "in", "while", "until", "do", "done",
   "\x7b", "\x7d", "!"].map Bytes.ofString

/-- The next token is this reserved word. -/
def isWord (s : String) : List Token → Bool
  | .word _ _ (some b) :: _ => b = Bytes.ofString s
  | _ => false

def isOperator (s : String) : List Token → Bool
  | .operator _ o :: _ => o = s
  | _ => false

/-- The script cannot be read on: the line, and why. -/
structure Obstacle where
  line : Nat
  error : ScriptError
  deriving DecidableEq, Repr

def quotedName (s : String) : String := "\"" ++ s ++ "\""

/-- What stands where it cannot. -/
def unexpected (ts : List Token) (expecting : Option String) : Obstacle :=
  match ts with
  | [] => ⟨0, .unexpected "end of file" expecting⟩
  | .ended l :: _ => ⟨l, .unexpected "end of file" expecting⟩
  | .broken l e :: _ => ⟨l, e⟩
  | .word l _ (some b) :: _ =>
    ⟨l, .unexpected (if reserved.contains b then quotedName (Bytes.toText b) else "word") expecting⟩
  | .word l _ none :: _ => ⟨l, .unexpected "word" expecting⟩
  | .stream l _ :: _ => ⟨l, .unexpected "redirection" expecting⟩
  | .body _ :: _ => ⟨0, .unexpected "word" expecting⟩
  | .operator l o :: _ =>
    let name := if o = "\n" then "newline"
      else if (Bytes.ofString o).any fun b => b = 60 || b = 62 then "redirection" else quotedName o
    ⟨l, .unexpected name expecting⟩

/-- The tokens behind a reserved word that has to come. -/
def expectWord (s : String) (ts : List Token) : Except Obstacle (List Token) :=
  if isWord s ts then .ok (ts.drop 1) else .error (unexpected ts (some (quotedName s)))

/-- The tokens behind an operator that has to come. -/
def expectOperator (s : String) (ts : List Token) : Except Obstacle (List Token) :=
  if isOperator s ts then .ok (ts.drop 1) else .error (unexpected ts (some (quotedName s)))

def dropNewlines (ts : List Token) : List Token :=
  ts.dropWhile fun
    | .operator _ o => o = "\n"
    | _ => false

/-- A redirection in front of the tokens. -/
def redirect? (ts : List Token) : Option (Except Obstacle (Redirect × List Token)) :=
  let (given, ts') := match ts with
    | .stream _ n :: r => (some n, r)
    | _ => (none, ts)
  match ts' with
  | .operator _ o :: r =>
    let kind : Option (RedirectKind × Nat) :=
      if o = "<" then some (.input, 0) else if o = ">" || o = ">|" then some (.output, 1)
      else if o = ">>" then some (.append, 1) else if o = ">&" then some (.copy, 1)
      else if o = "<&" then some (.copy, 0) else if o = "<<" then some (.here, 0) else none
    match kind with
    | none => none
    | some (kind, default) =>
      match r with
      | .word _ w _ :: rest => some (.ok (⟨given.getD default, kind, w⟩, rest))
      | _ => some (.error (unexpected r none))
  | _ => none

/-- All redirections in front of the tokens. -/
def redirects : Nat → List Token → Except Obstacle (List Redirect × List Token)
  | 0, ts => .ok ([], ts)
  | fuel + 1, ts =>
    match redirect? ts with
    | none => .ok ([], ts)
    | some (.error e) => .error e
    | some (.ok (r, rest)) => (redirects fuel rest).map fun (rs, ts) => (r :: rs, ts)

/-- A word of the form `name=value`, taken apart. -/
def assignment? (w : Word) : Option (Bytes × Word) :=
  let rec go (name : Bytes) : Word → Option (Bytes × Word)
    | .text [b] false :: rest =>
      if b = equals then if name.isEmpty then none else some (name.reverse, rest)
      else if isNamePart b && (!name.isEmpty || isNameStart b) then go (b :: name) rest
      else none
    | _ => none
  go [] w

/-- A simple command that begins on a line. -/
def simple (line : Nat) : Nat → List (Bytes × Word) → List Word → List Redirect → List Token →
    Except Obstacle (Command × List Token)
  | 0, as, ws, rs, ts => .ok (.simple line as.reverse ws.reverse rs.reverse, ts)
  | fuel + 1, as, ws, rs, ts =>
    match redirect? ts with
    | some (.error e) => .error e
    | some (.ok (r, rest)) => simple line fuel as ws (r :: rs) rest
    | none =>
      match ts with
      | .word _ w _ :: rest =>
        match if ws.isEmpty then assignment? w else none with
        | some a => simple line fuel (a :: as) ws rs rest
        | none => simple line fuel as (w :: ws) rs rest
      | _ =>
        if as.isEmpty && ws.isEmpty && rs.isEmpty then .error (unexpected ts none)
        else .ok (.simple line as.reverse ws.reverse rs.reverse, ts)

/-- The patterns of a branch, up to its parenthesis. -/
def patterns : Nat → List Token → Except Obstacle (List Word × List Token)
  | 0, ts => .error (unexpected ts none)
  | fuel + 1, ts =>
    match ts with
    | .word _ w _ :: ts' =>
      if isOperator ")" ts' then .ok ([w], ts'.drop 1)
      else if isOperator "|" ts' then
        (patterns fuel (ts'.drop 1)).map fun (ws, ts) => (w :: ws, ts)
      else .error (unexpected ts' (some "\")\""))
    | _ => .error (unexpected ts (some "\")\""))

/-- The words of a `for`. -/
def eachWords (ts : List Token) : List Word × List Token :=
  let ws := ts.takeWhile fun
    | .word .. => true
    | _ => false
  (ws.filterMap fun
    | .word _ w _ => some w
    | _ => none, ts.drop ws.length)

/-- The line on which the next token ends. -/
def lineOf : List Token → Nat
  | .word l _ _ :: _ | .stream l _ :: _ | .operator l _ :: _ | .broken l _ :: _ | .ended l :: _ => l
  | _ => 0

/-- A name of a function or a variable. -/
def isName (s : Bytes) : Bool := (s.head?.map isNameStart).getD false && s.all isNamePart

mutual

/-- Commands one after the other, up to a token that ends them; at the top up to the end of a
    line. -/
def list (top : Bool) : Nat → List Token → Except Obstacle (Command × List Token)
  | 0, ts => .error (unexpected ts none)
  | fuel + 1, ts =>
    let ts := if top then ts else dropNewlines ts
    if ends ts then .ok (.nothing, ts)
    else do
      let (a, ts) ← andOr fuel ts
      match ts with
      | .operator _ o :: rest =>
        if o = ";" || o = "&" || (o = "\n" && !top) then
          let (b, ts) ← list top fuel rest
          pure (.sequence (if o = "&" then .background a else a) b, ts)
        else pure (a, ts)
      | _ => pure (a, ts)
where
  /-- No further command can begin here. -/
  ends : List Token → Bool
    | [] | .ended _ :: _ => true
    | .operator _ o :: _ => o = ")" || o = ";;" || o = "\n"
    | .word _ _ (some b) :: _ =>
      (["then", "elif", "else", "fi", "esac", "do", "done", "\x7d"].map Bytes.ofString).contains b
    | _ => false

/-- Commands joined by `&&` and `||`, from the left. -/
def andOr : Nat → List Token → Except Obstacle (Command × List Token)
  | 0, ts => .error (unexpected ts none)
  | fuel + 1, ts => do
    let (a, ts) ← pipeline fuel ts
    andOrRest fuel a ts

/-- The further commands after `a`. -/
def andOrRest : Nat → Command → List Token → Except Obstacle (Command × List Token)
  | 0, a, ts => .ok (a, ts)
  | fuel + 1, a, ts =>
    if isOperator "&&" ts then do
      let (b, ts) ← pipeline fuel (dropNewlines (ts.drop 1))
      andOrRest fuel (.both a b) ts
    else if isOperator "||" ts then do
      let (b, ts) ← pipeline fuel (dropNewlines (ts.drop 1))
      andOrRest fuel (.either a b) ts
    else .ok (a, ts)

/-- Commands joined by `|`. -/
def pipeline : Nat → List Token → Except Obstacle (Command × List Token)
  | 0, ts => .error (unexpected ts none)
  | fuel + 1, ts =>
    if isWord "!" ts then do
      let (a, ts) ← pipeline fuel (ts.drop 1)
      pure (.not a, ts)
    else do
      let (a, ts) ← single fuel ts
      if isOperator "|" ts then
        let (b, ts) ← pipeline fuel (dropNewlines (ts.drop 1))
        pure (.pipe a b, ts)
      else pure (a, ts)

/-- One command. -/
def single : Nat → List Token → Except Obstacle (Command × List Token)
  | 0, ts => .error (unexpected ts none)
  | fuel + 1, ts =>
    if isOperator "(" ts then do
      let (a, ts) ← list false fuel (ts.drop 1)
      let ts ← expectOperator ")" ts
      let (rs, ts) ← redirects fuel ts
      pure (.group true a rs, ts)
    else if isWord "\x7b" ts then do
      let (a, ts) ← list false fuel (ts.drop 1)
      let ts ← expectWord "\x7d" ts
      let (rs, ts) ← redirects fuel ts
      pure (.group false a rs, ts)
    else if isWord "if" ts then do
      let (a, ts) ← conditional fuel (ts.drop 1)
      let (rs, ts) ← redirects fuel ts
      pure (.group false a rs, ts)
    else if isWord "while" ts || isWord "until" ts then do
      let (c, ts') ← list false fuel (ts.drop 1)
      let ts' ← expectWord "do" ts'
      let (b, ts') ← list false fuel ts'
      let ts' ← expectWord "done" ts'
      let (rs, ts') ← redirects fuel ts'
      pure (.group false (.loop (isWord "until" ts) c b) rs, ts')
    else if isWord "for" ts then
      match ts.drop 1 with
      | .word l _ (some name) :: ts => do
        if !isName name then .error ⟨l, .badLoopVariable⟩
        let ts := dropNewlines ts
        let (ws, ts) ← (if isWord "in" ts then
            let (ws, ts) := eachWords (ts.drop 1)
            if isOperator ";" ts || isOperator "\n" ts then .ok (ws, ts.drop 1)
            else .error (unexpected ts none)
          else .ok ([[Part.param (Bytes.ofString "@") .value [] true]],
            if isOperator ";" ts then ts.drop 1 else ts) : Except Obstacle (List Word × List Token))
        let ts ← expectWord "do" (dropNewlines ts)
        let (b, ts) ← list false fuel ts
        let ts ← expectWord "done" ts
        let (rs, ts) ← redirects fuel ts
        pure (.group false (.each name ws b) rs, ts)
      | ts => .error ⟨lineOf ts, .badLoopVariable⟩
    else if isWord "case" ts then
      match ts.drop 1 with
      | .word _ w _ :: ts => do
        let ts ← expectWord "in" (dropNewlines ts)
        let (bs, ts) ← branches fuel (dropNewlines ts)
        let (rs, ts) ← redirects fuel ts
        pure (.group false (.select w bs) rs, ts)
      | ts => .error (unexpected ts (some "word"))
    else
      match ts with
      | .word l _ bare :: ts' =>
        if (bare.map reserved.contains).getD false && bare ≠ some (Bytes.ofString "in") then
          .error (unexpected ts none)
        else if isOperator "(" ts' then do
          let ts ← expectOperator ")" (ts'.drop 1)
          if !(bare.map isName).getD false then .error ⟨l, .badFunctionName⟩
          let (body, ts) ← single fuel (dropNewlines ts)
          pure (.define (bare.getD []) body, ts)
        else simple l fuel [] [] [] ts
      | _ => simple (lineOf ts) fuel [] [] [] ts

/-- What follows `if` or `elif`. -/
def conditional : Nat → List Token → Except Obstacle (Command × List Token)
  | 0, ts => .error (unexpected ts none)
  | fuel + 1, ts => do
    let (c, ts) ← list false fuel ts
    let ts ← expectWord "then" ts
    let (yes, ts) ← list false fuel ts
    if isWord "elif" ts then
      let (no, ts) ← conditional fuel (ts.drop 1)
      pure (.choose c yes no, ts)
    else if isWord "else" ts then
      let (no, ts) ← list false fuel (ts.drop 1)
      let ts ← expectWord "fi" ts
      pure (.choose c yes no, ts)
    else
      let ts ← expectWord "fi" ts
      pure (.choose c yes .nothing, ts)

/-- The branches of a `case`, up to its end. -/
def branches : Nat → List Token → Except Obstacle (List (List Word × Command) × List Token)
  | 0, ts => .error (unexpected ts none)
  | fuel + 1, ts =>
    if isWord "esac" ts then .ok ([], ts.drop 1)
    else do
      let (ps, ts) ← patterns fuel (if isOperator "(" ts then ts.drop 1 else ts)
      let (a, ts) ← list false fuel ts
      if isOperator ";;" ts then
        let (bs, ts) ← branches fuel (dropNewlines (ts.drop 1))
        pure ((ps, a) :: bs, ts)
      else if isWord "esac" ts then pure ([(ps, a)], ts.drop 1)
      else .error (unexpected ts (some "\";;\""))

end

/-- The command on the first line of a script that is not empty, with the lines that belong to it,
    and what is left; `none` when there is none. -/
def nextCommand (ts : List Token) : Option (Except Obstacle (Command × List Token)) :=
  match dropNewlines ts with
  | [] | .ended _ :: _ => none
  | ts =>
    match list true (8 * ts.length + 8) ts with
    | .error e => some (.error e)
    | .ok (c, rest) =>
      match rest with
      | [] | .ended _ :: _ => some (.ok (c, rest))
      | .operator _ "\n" :: rest => some (.ok (c, rest))
      | _ => some (.error (unexpected rest none))

end MarkupLint.Shell
