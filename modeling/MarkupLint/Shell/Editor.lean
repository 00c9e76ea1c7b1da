/-
  Editing lines by a script: commands that apply to some lines, most of all to put other texts in
  place of what an expression matches.
-/
import MarkupLint.Shell.Expression
import MarkupLint.Shell.Lines

namespace MarkupLint.Shell.Editor

/-- A line, or the lines that an expression matches. -/
inductive Address where
  | line (n : Nat)
  | last
  | matching (m : Pattern.Matcher)

/-- A piece of the text that is put in. -/
inductive Piece where
  | text (c : Char)
  /-- a group, or with zero the whole match -/
  | group (n : Nat)
  deriving DecidableEq, Repr

/-- What is done with a line. -/
inductive Action where
  /-- puts a text in place of matches, from the `first` one on, one or all of them -/
  | substitute (m : Pattern.Matcher) (new : List Piece) (first : Nat) (all print : Bool)
  | print
  | delete
  | quit
  | number
  /-- puts other characters in place of characters -/
  | change (table : List (Char × Char))

/-- A command of the script, for the lines from one address to another. -/
structure Step where
  first : Option Address
  second : Option Address
  negated : Bool
  action : Action

/-! ## Reading -/

/-- Why a script cannot be read: the words, and the number of characters read. -/
structure EditorError where
  words : String
  left : Nat

/-- The text up to a mark, and what follows the mark. A backslash keeps the mark from ending it. -/
def upTo? (mark : Char) : List Char → Option (List Char × List Char)
  | [] => none
  | c :: r =>
    if c = mark then some ([], r)
    else if c = '\\' then
      match r with
      | [] => none
      | d :: r' =>
        (upTo? mark r').map fun (t, s) => (if d = mark then d :: t else c :: d :: t, s)
    else (upTo? mark r).map fun (t, s) => (c :: t, s)

/-- The pieces of the text that is put in. -/
def pieces : List Char → List Piece
  | '\\' :: c :: r =>
    (if c.isDigit then .group (c.toNat - 48)
      else if c = 'n' then .text '\n'
      else if c = 't' then .text '\t'
      else .text c) :: pieces r
  | '&' :: r => .group 0 :: pieces r
  | c :: r => .text c :: pieces r
  | [] => []

def dropBlanks (s : List Char) : List Char := s.dropWhile fun c => c = ' ' || c = '\t'

/-- The value of a run of digits in front, and what follows. -/
def digits (s : List Char) : Nat × List Char :=
  let ds := s.takeWhile Char.isDigit
  (ds.foldl (fun n c => n * 10 + (c.toNat - 48)) 0, s.drop ds.length)

/-- An address in front of a text. -/
def address (extended : Bool) (s : List Char) : Except EditorError (Option Address × List Char) :=
  match s with
  | '$' :: r => .ok (some .last, r)
  | '/' :: r =>
    match upTo? '/' r with
    | none => .error ⟨"unterminated address regex", 0⟩
    | some (t, rest) =>
      match Expression.matcher? extended false (Expression.unlatin t) with
      | some m => .ok (some (.matching m), rest)
      | none => .error ⟨"Invalid regular expression", rest.length⟩
  | c :: _ =>
    if c.isDigit then
      let (n, rest) := digits s
      .ok (some (.line n), rest)
    else .ok (none, s)
  | [] => .ok (none, [])

/-- The flags of a substitution: the first match that counts, whether all after it do, whether the
    line is printed, whether letter case counts for nothing. -/
def flags : Nat → Nat × Bool × Bool × Bool → List Char → (Nat × Bool × Bool × Bool) × List Char
  | 0, f, s => (f, s)
  | fuel + 1, (first, all, print, folded), s =>
    match s with
    | 'g' :: r => flags fuel (first, true, print, folded) r
    | 'p' :: r => flags fuel (first, all, true, folded) r
    | 'i' :: r | 'I' :: r => flags fuel (first, all, print, true) r
    | c :: _ =>
      if c.isDigit then
        let (n, rest) := digits s
        flags fuel (n, all, print, folded) rest
      else ((first, all, print, folded), s)
    | [] => ((first, all, print, folded), [])

/-- What a command does, given its letter and what follows it. -/
def action (extended : Bool) (letter : Char) (r : List Char) :
    Except EditorError (Action × List Char) :=
  let unfinished : Except EditorError (Action × List Char) :=
    .error ⟨"unterminated \x60" ++ letter.toString ++ "' command", 0⟩
  match letter with
  | 'p' => .ok (.print, r)
  | 'd' => .ok (.delete, r)
  | 'q' => .ok (.quit, r)
  | '=' => .ok (.number, r)
  | 's' =>
    match r with
    | [] => unfinished
    | mark :: r =>
      match upTo? mark r with
      | none => unfinished
      | some (old, r) =>
        match upTo? mark r with
        | none => unfinished
        | some (new, r) =>
          let ((first, all, print, folded), rest) := flags (r.length + 1) (1, false, false, false) r
          match Expression.matcher? extended folded (Expression.unlatin old) with
          | some m => .ok (.substitute m (pieces new) first all print, rest)
          | none => .error ⟨"Invalid regular expression", rest.length⟩
  | 'y' =>
    match r with
    | [] => unfinished
    | mark :: r =>
      match upTo? mark r with
      | none => unfinished
      | some (old, r) =>
        match upTo? mark r with
        | none => unfinished
        | some (new, rest) => .ok (.change (old.zip new), rest)
  | c => .error ⟨"unknown command: \x60" ++ c.toString ++ "'", r.length⟩

/-- The commands of a script. Each takes a character, which bounds `fuel`. -/
def steps (extended : Bool) : Nat → List Char → Except EditorError (List Step)
  | 0, _ => .ok []
  | fuel + 1, s =>
    match s.dropWhile fun c => c = ' ' || c = '\t' || c = '\n' || c = ';' with
    | [] => .ok []
    | s => do
      let (first, s) ← address extended s
      let (second, s) ← (match first, s with
        | some _, ',' :: r => address extended (dropBlanks r)
        | _, s => .ok (none, s) : Except EditorError (Option Address × List Char))
      let s := dropBlanks s
      let negated := s.head? = some '!'
      match dropBlanks (if negated then s.drop 1 else s) with
      | [] => .error ⟨"missing command", 0⟩
      | letter :: r =>
        let (a, rest) ← action extended letter r
        match dropBlanks rest with
        | [] => pure [⟨first, second, negated, a⟩]
        | c :: rest =>
          if c = ';' || c = '\n' then
            let more ← steps extended fuel rest
            pure (⟨first, second, negated, a⟩ :: more)
          else
            let words := match a with
              | .substitute .. => "unknown option to \x60s'"
              | _ => "extra characters after command"
            .error ⟨words, rest.length⟩

/-! ## Editing -/

/-- The text that is put in for a match. -/
def Piece.render (line : List Char) (hit : Expression.Span)
    (groups : List (Option Expression.Span)) :
    Piece → List Char
  | .text c => [c]
  | .group 0 => (line.drop hit.1).take (hit.2 - hit.1)
  | .group (n + 1) =>
    match groups[n]? with
    | some (some (a, b)) => (line.drop a).take (b - a)
    | _ => []

/-- A line with texts put in for matches, from a place on. -/
def putIn (new : List Piece) (line : List Char) (start : Nat) :
    List (Expression.Span × List (Option Expression.Span)) → List Char
  | [] => line.drop start
  | (hit, groups) :: rest =>
    (line.drop start).take (hit.1 - start) ++ new.flatMap (Piece.render line hit groups) ++
      putIn new line hit.2 rest

/-- An address holds for a line. -/
def Address.holds (line : List Char) (number : Nat) (isLast : Bool) : Address → Bool
  | .line n => n = number
  | .last => isLast
  | .matching m => (Expression.find? m line 0).isSome

/-- A line while it is edited. -/
structure Edit where
  line : List Char
  printed : List (List Char) := []
  deleted : Bool := false
  quit : Bool := false

/-- Carries out an action. -/
def Action.apply (a : Action) (number : Nat) (e : Edit) : Edit :=
  match a with
  | .print => { e with printed := e.printed ++ [e.line] }
  | .delete => { e with deleted := true }
  | .quit => { e with quit := true }
  | .number => { e with printed := e.printed ++ [(toString number).toList] }
  | .change table =>
    { e with line := e.line.map fun c => ((table.find? fun t => t.1 == c).map fun t => t.2).getD c }
  | .substitute m new first all shown =>
    let hits := (Expression.findAll m e.line (e.line.length + 2) 0 none).drop (first - 1)
    let hits := if all then hits else hits.take 1
    if hits.isEmpty then e
    else
      let line := putIn new e.line 0 hits
      { e with line := line, printed := if shown then e.printed ++ [line] else e.printed }

/-- Whether a step applies to a line, and whether its range goes on after it. -/
def Step.applies (s : Step) (active : Bool) (line : List Char) (number : Nat) (isLast : Bool) :
    Bool × Bool :=
  let isAt (a : Address) : Bool := a.holds line number isLast
  let (yes, active) := match s.first, s.second with
    | none, _ => (true, false)
    | some a, none => (isAt a, false)
    | some a, some b =>
      if active then (true, !(isAt b) && (match b with
        | .line n => number < n
        | _ => true))
      else if isAt a then (true, match b with
        | .line n => number < n
        | .last => !isLast
        | .matching _ => true)
      else (false, false)
  (yes != s.negated, active)

/-- Takes a line through all steps, each with the state of its range. -/
def editLine (number : Nat) (isLast : Bool) : List (Step × Bool) → Edit → Edit × List Bool
  | [], e => (e, [])
  | (s, active) :: rest, e =>
    if e.deleted || e.quit then (e, active :: rest.map (·.2))
    else
      let (yes, active) := s.applies active e.line number isLast
      let (e, more) := editLine number isLast rest (if yes then s.action.apply number e else e)
      (e, active :: more)

/-- Edits lines one after the other, and gives what is printed. -/
def editAll (steps : List Step) (quiet : Bool) : List Bool → Nat → List Bytes → List Bytes
  | _, _, [] => []
  | active, number, l :: ls =>
    let bare := bareLine l
    let (e, active) :=
      editLine number ls.isEmpty (steps.zip active) { line := Expression.latin bare }
    let shown := e.printed ++ (if quiet || e.deleted then [] else [e.line])
    let texts := shown.map Expression.unlatin
    let out := texts.zipIdx.map fun (t, n) =>
      if n + 1 = texts.length && bare.length = l.length then t else t ++ [10]
    out ++ (if e.quit then [] else editAll steps quiet active (number + 1) ls)

end MarkupLint.Shell.Editor

namespace MarkupLint.Shell

/-- Edits the lines of texts by a script. -/
def sed (st : State) (args : List Bytes) : State :=
  st.withOptions "sed" "nErsuz" "e" args fun o =>
    let given := (o.given.filter fun g => g.1 == 101).map fun g => g.2
    match if given.isEmpty then o.operands.head?.map fun s => [s] else some given with
    | none => st.misuse "sed" (Bytes.ofString "missing script")
    | some scripts =>
      let files := if given.isEmpty then o.operands.drop 1 else o.operands
      let script := Expression.latin ([(10 : UInt8)].intercalate scripts)
      match Editor.steps (o.has 'E' || o.has 'r') (script.length + 1) script with
      | .error e =>
        (st.remark "sed"
          (Bytes.ofString ("-e expression #1, char " ++ toString (script.length - e.left) ++
          ": " ++ e.words))).withStatus 1
      | .ok steps =>
        let (st, ts) := st.texts "sed" (fun p e =>
          Bytes.ofString "can't read " ++ cannotRead p e) files
        let lines := ts.flatMap fun t => linesOf t.2
        let out := Editor.editAll steps (o.has 'n') (steps.map fun _ => false) 1 lines
        (st.write 1 out.flatten).withStatus (if st.status = 0 then 0 else 2)

end MarkupLint.Shell
