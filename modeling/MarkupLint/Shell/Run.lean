/-
  Running scripts. `fuel` bounds how deep commands are run one inside the other; a script that uses
  it up, and a loop that does not come to an end, count as ones that run for ever, and are killed.
-/
import MarkupLint.Shell.Utility

namespace MarkupLint.Shell

/-! ## Redirections -/

/-- Lets a stream go where a path leads, `keep`ing what is in the file or not. -/
def State.redirectTo (st : State) (stream : Nat) (path : Bytes) (keep : Bool) : State × Bool :=
  if path = State.nullPath then (st.connect stream (some .nowhere), true)
  else if path = Bytes.ofString "/dev/stdout" then (st.connect stream (st.sink? 1), true)
  else if path = Bytes.ofString "/dev/stderr" then (st.connect stream (st.sink? 2), true)
  else
    match st.files.openForWriting path with
    | .ok files =>
      let p := st.absolute path
      let files := if keep then files else files.write p []
      ({ st with files := files }.connect stream (some (.file p)), true)
    | .error e =>
      let why :=
        if e = .missing || e = .notDirectory then "Directory nonexistent" else fileErrorText e
      (st.complain (Bytes.ofString "cannot create " ++ path ++ Bytes.ofString (": " ++ why)), false)

/-- Applies one redirection; `false` when it cannot be made. -/
def State.redirect (st : State) (r : Redirect) (target : Bytes) : State × Bool :=
  match r.kind with
  | .here => ({ st with input := target }, true)
  | .input =>
    match st.take target with
    | .ok (s, st) => ({ st with input := s }, true)
    | .error .isDirectory => ({ st with input := [] }, true)
    | .error e =>
      let why := if e = .missing || e = .notDirectory then "No such file" else fileErrorText e
      (st.complain (Bytes.ofString "cannot open " ++ target ++ Bytes.ofString (": " ++ why)), false)
  | .output => st.redirectTo r.stream target false
  | .append => st.redirectTo r.stream target true
  | .copy =>
    if target = [Ascii.dash] then
      if r.stream = 0 then ({ st with input := [] }, true) else (st.connect r.stream none, true)
    else
      match digitsOf? target with
      | none => (st.fail (Bytes.ofString "Syntax error: Bad fd number"), false)
      | some 0 => (st, true)
      | some n =>
        match st.sink? n with
        | some s => (st.connect r.stream (some s), true)
        | none => (st.complain (target ++ Bytes.ofString ": Bad file descriptor"), false)

/-- Applies redirections in order. -/
def State.redirectAll (run : Substitute) (st : State) : List Redirect → State × Bool
  | [] => (st, true)
  | r :: rs =>
    let (st, target) := expandWord run st r.target
    if !st.isRunning then (st, false)
    else
      let (st, ok) := st.redirect r target
      if ok then st.redirectAll run rs else (st, false)

/-- The input is redirected. -/
def redirectsInput (rs : List Redirect) : Bool := rs.any fun r => r.stream = 0

/-- The state after a command with redirections: its streams go where they went before. -/
def State.restore (before after : State) (rs : List Redirect) : State :=
  { after with
    sinks := before.sinks
    input := if redirectsInput rs then before.input else after.input }

/-! ## Shells inside of shells -/

/-- The state that a shell of its own starts with. -/
def State.enterOwn (st : State) : State := { st with farewell := none, loops := 0 }

/-- The state after a shell of its own: only what it did to files, streams and the clock remains. An
    exit ends that shell alone. -/
def State.afterOwn (before after : State) : State :=
  { before with
    files := { after.files with cwd := before.files.cwd }
    buffers := after.buffers
    input := after.input
    clock := after.clock
    status := after.status
    flow := if after.flow = .killed then .killed else before.flow }

/-- The state that a program starts with which is a shell. -/
def State.enterProgram (st : State) (name : Bytes) (arguments : List Bytes) : State :=
  { st.enterOwn with
    bindings := st.environment, fixed := [], functions := [], locals := none, name := name
    arguments := arguments, line := 1, strict := false, demanding := false, traced := false
    guarded := false, status := 0 }

/-- Runs a command with variables that only it gets to see. -/
def State.withBindings (st : State) (bs : List (Bytes × Bytes)) (body : State → State) : State :=
  let after := body (bs.foldl (fun (st : State) b => (st.assign b.1 b.2).publish b.1) st)
  { bs.foldl (fun after b => after.bind b.1 (st.lookup? b.1)) after with exported := st.exported }

/-- Leaves a function: its arguments and variables are those from before. -/
def State.afterFunction (before after : State) : State :=
  let after := ((after.locals.getD []).foldl (fun st b => st.bind b.1 b.2) after)
  { after with
    arguments := before.arguments
    locals := before.locals
    loops := before.loops
    flow := if after.flow = .returning then .running else after.flow }

/-- A command that failed ends a strict script, unless it is a condition. -/
def State.checked (st : State) : State :=
  if st.isRunning && st.strict && !st.guarded && st.status ≠ 0 then { st with flow := .exited }
  else st

/-- Runs a condition. -/
def State.asCondition (st : State) (body : State → State) : State :=
  { body { st with guarded := true } with guarded := st.guarded }

/-- Shows a command before it is run. -/
def State.trace (st : State) (words : List Bytes) : State :=
  if st.traced && !words.isEmpty then st.write 2 (Bytes.ofString "+ " ++ joinBlank words ++ [10])
  else st

/-! ## Loops -/

/-- How often a loop is run at most. -/
def maxTurns : Nat := 100000

/-- The state behind a turn of a loop, and whether the loop goes on. -/
def State.afterTurn (st : State) : State × Bool :=
  match st.flow with
  | .running => (st, true)
  | .breaking n => ({ st with flow := if n ≤ 1 then .running else .breaking (n - 1) }, false)
  | .continuing n =>
    if n ≤ 1 then ({ st with flow := .running }, true)
    else ({ st with flow := .continuing (n - 1) }, false)
  | _ => (st, false)

/-- Runs a body as long as a condition lets it; every turn takes a millisecond. -/
def repeatWhile (condition : State → State × Bool) (body : State → State) : Nat → State → State
  | 0, st => { st with flow := .killed }
  | turns + 1, st =>
    let before := st.status
    let (st, go) := condition st
    if !st.isRunning then st.afterTurn.1
    else if !go then st.withStatus before
    else
      let (st, go) := (body (st.wait 1)).afterTurn
      if go then repeatWhile condition body turns st else st

/-- Runs a body for each of some texts. -/
def repeatFor (body : Bytes → State → State) : List Bytes → State → State
  | [], st => st
  | s :: ss, st =>
    let (st, go) := (body s st).afterTurn
    if go then repeatFor body ss st else st

/-- Runs a loop, with one more loop around its commands. -/
def State.inLoop (st : State) (body : State → State) : State :=
  { body { st with loops := st.loops + 1, status := 0 } with loops := st.loops }

/-! ## Commands -/

/-- Runs the lines of a script one after the other. `lead` stands in front of what is said about a
    line that cannot be read. -/
def runLines (run : Command → State → State) (lead : String) : Nat → List Token → State → State
  | 0, _, st => st
  | fuel + 1, ts, st =>
    if !st.isRunning then st
    else
      match nextCommand ts with
      | none => st
      | some (.error o) =>
        { st with line := o.line }.fail
          (Bytes.ofString (lead ++ "Syntax error: " ++ o.error.message))
      | some (.ok (c, rest)) => runLines run lead fuel rest (run c st)

/-- Settings in front of a command, and the command. -/
def leadingSettings : List Bytes → List (Bytes × Bytes) × List Bytes
  | a :: rest =>
    match setting a with
    | (x, some v) =>
      let (bs, rest) := leadingSettings rest
      ((x, v) :: bs, rest)
    | _ => ([], a :: rest)
  | [] => ([], [])

mutual

/-- Runs a script. A script without commands succeeds. -/
def runText : Nat → String → Bytes → State → State
  | 0, _, _, st => { st with flow := .killed }
  | fuel + 1, lead, s, st =>
    let ts := scriptTokens s
    if (nextCommand ts).isNone then st.withStatus 0
    else runLines (run fuel) lead (ts.length + 1) ts st

/-- Runs what a script wants to be run at its end. -/
def runFarewell : Nat → State → State
  | 0, st => st
  | fuel + 1, st =>
    match st.farewell with
    | some script =>
      if st.flow = .killed then st
      else
        let after := runText fuel "" script { st with farewell := none, flow := .running }
        if after.flow = .running then { after with status := st.status, flow := st.flow } else after
    | none => st

/-- Runs a command in a shell of its own. -/
def runOwn : Nat → Command → State → State
  | 0, _, st => { st with flow := .killed }
  | fuel + 1, c, st =>
    if st.isRunning then st.afterOwn (runFarewell fuel (run fuel c st.enterOwn)) else st

/-- What the script of a substitution prints. -/
def substitute : Nat → Bytes → State → State × Bytes
  | 0, _, st => ({ st with flow := .killed }, [])
  | fuel + 1, s, st =>
    let (after, out) := st.capture fun inner =>
      inner.afterOwn (runFarewell fuel (runText fuel "" s inner.enterOwn))
    ({ after with status := st.status, substituted := some after.status }, out)

/-- Runs a command. -/
def run : Nat → Command → State → State
  | 0, _, st => { st with flow := .killed }
  | fuel + 1, c, st =>
    if !st.isRunning then st
    else
      match c with
      | .nothing => st
      | .simple line as ws rs =>
        (runSimple fuel as ws rs { st with line := line, substituted := none }).checked
      | .pipe a b =>
        let (mid, out) := st.capture (runOwn fuel a)
        let last := runOwn fuel b { mid with input := out }
        { last with input := mid.input }.checked
      | .not a =>
        let st := st.asCondition (run fuel a)
        if st.isRunning then st.withStatus (if st.status = 0 then 1 else 0) else st
      | .both a b =>
        let st := st.asCondition (run fuel a)
        if st.status = 0 then run fuel b st else st
      | .either a b =>
        let st := st.asCondition (run fuel a)
        if st.status = 0 then st else run fuel b st
      | .sequence a b => run fuel b (run fuel a st)
      | .background a =>
        { runOwn fuel a { st with input := [] } with
          input := st.input
          clock := st.clock
          status := 0 }
      | .group own a rs =>
        let (inner, ok) := st.redirectAll (substitute fuel) rs
        if !ok then (st.restore inner rs).withStatus 2
        else st.restore (if own then (runOwn fuel a inner).checked else run fuel a inner) rs
      | .choose condition yes no =>
        let st := st.asCondition (run fuel condition)
        if !st.isRunning then st
        else if st.status = 0 then run fuel yes st
        else match no with
          | .nothing => st.withStatus 0
          | _ => run fuel no st
      | .loop untilHolds condition body =>
        st.inLoop (repeatWhile (fun st =>
          let st := st.asCondition (run fuel condition)
          (st, (st.status = 0) != untilHolds)) (run fuel body) maxTurns)
      | .each name ws body =>
        let (st, words) := expandWords (substitute fuel) st ws
        if !st.isRunning then st
        else st.inLoop (repeatFor (fun w st => run fuel body (st.assign name w)) words)
      | .select subject branches =>
        let (st, s) := expandWord (substitute fuel) st subject
        let (st, hit) := branches.foldl (fun (st, hit) (ps, body) =>
          match hit with
          | some b => (st, some b)
          | none =>
            let (st, any) := ps.foldl (fun (st, any) p =>
              if any then (st, true)
              else
                let (st, items) := expandPattern (substitute fuel) st p
                (st, patternAccepts items s)) (st, false)
            (st, if any then some body else none)) (st, (none : Option Command))
        match hit with
        | some body => run fuel body (st.withStatus 0)
        | none => if st.isRunning then st.withStatus 0 else st
      | .define name body =>
        { st with
          functions := (name, body) :: st.functions.filter fun f => f.1 != name
          status := 0 }

/-- Runs a simple command: its words are expanded, its streams redirected, its variables set. -/
def runSimple : Nat → List (Bytes × Word) → List Word → List Redirect → State → State
  | 0, _, _, _, st => { st with flow := .killed }
  | fuel + 1, as, ws, rs, st =>
    let (st, words) := expandWords (substitute fuel) st ws
    if !st.isRunning then st
    else
      let (inner, ok) := st.redirectAll (substitute fuel) rs
      let isSpecial := match words with
        | name :: _ =>
          match st.meaning name with
          | .special => true
          | _ => false
        | [] => false
      if !ok then
        let after := (st.restore inner rs).withStatus 2
        if isSpecial then { after with flow := .exited } else after
      else
        let (inner, bs) := as.foldl (fun (inner, bs) (name, w) =>
          let (inner, v) := expandWord (substitute fuel) inner w
          (inner, bs ++ [(name, v)])) (inner, ([] : List (Bytes × Bytes)))
        let inner := inner.trace (bs.map (fun b => b.1 ++ Ascii.equals :: b.2) ++ words)
        let assigned (st : State) : State :=
          bs.foldl (fun (st : State) b => if st.isRunning then st.assign b.1 b.2 else st) st
        if !inner.isRunning then st.restore inner rs
        else
          match words with
          | [] =>
            let after := assigned inner
            let after :=
              if after.isRunning then after.withStatus (after.substituted.getD 0) else after
            st.restore after rs
          | name :: args =>
            if isSpecial then
              let after := invoke fuel true name args (assigned inner)
              if name = Bytes.ofString "exec" && args.isEmpty then after else st.restore after rs
            else st.restore (inner.withBindings bs (invoke fuel true name args)) rs

/-- Runs a command by its name, with `functions` or without. -/
def invoke : Nat → Bool → Bytes → List Bytes → State → State
  | 0, _, _, _, st => { st with flow := .killed }
  | fuel + 1, functions, name, args, st =>
    if !st.isRunning then st
    else
      match if functions then st.meaning name else .unknown with
      | .function body =>
        st.afterFunction
          (run fuel body { st with arguments := args, loops := 0, locals := some [] })
      | _ =>
        match (commandName name).toText with
        | "eval" => runText fuel "eval: " (joinBlank args) st
        | "." => runFile fuel args st
        | "exec" =>
          match args with
          | [] => st.withStatus 0
          | name :: args =>
            if isAmong utilities (commandName name) then
              { invoke fuel false name args st with flow := .exited }
            else
              { st.complain (Bytes.ofString "exec: " ++ name ++ Bytes.ofString ": not found") with
                status := 127, flow := .exited }
        | "command" =>
          match args with
          | [] => st.withStatus 0
          | a :: rest =>
            if a = Bytes.ofString "-v" then locate st rest
            else if a = Bytes.ofString "-V" then describe st rest
            else if a = Bytes.ofString "-p" then invoke fuel false (rest.head?.getD []) rest.tail st
            else invoke fuel false a rest st
        | "env" =>
          let (st', args) := if args.head? = some (Bytes.ofString "-i") then
              ({ st with bindings := [], exported := [] }, args.drop 1)
            else (st, args)
          let (bs, rest) := leadingSettings args
          match rest with
          | [] => st.afterOwn (st'.withBindings bs fun st => printenv st [])
          | name :: args =>
            if isAmong utilities (commandName name) then
              st.afterOwn (st'.withBindings bs (invoke fuel false name args))
            else
              (st.remark "env"
                (inQuotes name ++ Bytes.ofString ": No such file or directory")).withStatus 127
        | "sh" => runShell fuel args st
        | _ => call st name args

/-- Runs the script in a file, in this shell. -/
def runFile : Nat → List Bytes → State → State
  | 0, _, st => { st with flow := .killed }
  | fuel + 1, args, st =>
    match args with
    | [] => st.withStatus 0
    | p :: _ =>
      if !p.contains Ascii.slash then
        st.fail (Bytes.ofString ".: " ++ p ++ Bytes.ofString ": not found")
      else
        match st.files.read p with
        | .error _ =>
          st.fail (Bytes.ofString ".: cannot open " ++ p ++ Bytes.ofString ": No such file")
        | .ok script =>
          let after := runText fuel (p.toText ++ ": ") script { st with loops := 0 }
          { after with
            loops := st.loops
            flow := if after.flow = .returning then .running else after.flow }

/-- Runs a script in a shell that is a program of its own: a text, a file, or the input. -/
def runShell : Nat → List Bytes → State → State
  | 0, _, st => { st with flow := .killed }
  | fuel + 1, args, st =>
    let start (name : Bytes) (arguments : List Bytes) (modes : Bytes) (s : Bytes) : State :=
      let inner := st.enterProgram name arguments
      let inner := modes.foldl (fun (st : State) l => (st.mode? true l).getD st) inner
      st.afterOwn (runFarewell fuel (runText fuel "" s inner))
    let name := Bytes.ofString "sh"
    let options := args.takeWhile fun a => a.head? = some Ascii.dash && 1 < a.length
    let letters := options.flatMap (·.drop 1)
    let rest := args.drop options.length
    let modes := letters.filter fun l => l ≠ 99 && l ≠ 115
    if letters.contains 99 then
      match rest with
      | [] => ({ st with line := 0 }.refuse (Bytes.ofString "-c requires an argument"))
      | s :: more => start (more.head?.getD name) more.tail modes s
    else
      match if letters.contains 115 then none else rest.head? with
      | some p =>
        match st.files.read p with
        | .ok s => start p rest.tail modes s
        | .error _ =>
          { st with line := 0 }.refuse
            (Bytes.ofString "cannot open " ++ p ++ Bytes.ofString ": No such file")
      | none => start name rest modes st.input

end

/-- How deep commands may be nested. -/
def maxDepth : Nat := 5000

/-- How a script ended. -/
inductive Ending where
  | exited (status : Nat)
  | killed
  deriving DecidableEq, Repr

/-- What is left of a script: what it printed, and how it ended. -/
structure Outcome where
  output : Bytes
  errors : Bytes
  ending : Ending

/-- Runs a script with files, variables and an input; it is killed at the deadline, in
    milliseconds. -/
def runScript (script : Bytes) (files : FileSystem) (bindings : List (Bytes × Bytes))
    (input : Bytes) (deadline : Option Nat) : Outcome :=
  let st : State :=
    { files := files
      bindings := (Bytes.ofString "PWD", files.cwd) :: bindings.filter fun b =>
        b.1 != Bytes.ofString "PWD"
      exported := bindings.map (·.1), input := input, deadline := deadline }
  let st := runFarewell maxDepth (runText maxDepth "" script st)
  ⟨st.buffers[0]?.getD [], st.buffers[1]?.getD [],
    if st.flow = .killed then .killed else .exited st.status⟩

end MarkupLint.Shell
