/-
  Commands that change the script's own state: its variables, its directory, its course, and its
  time.
-/
import MarkupLint.Shell.Expand
import MarkupLint.Shell.Files
import MarkupLint.Shell.Reader

namespace MarkupLint.Shell

/-- A complaint of a command that ends the script. -/
def State.failIn (st : State) (name : String) (text : Bytes) : State :=
  st.fail (Bytes.ofString (name ++ ": ") ++ text)

def illegalNumber (s : Bytes) : Bytes := Bytes.ofString "Illegal number: " ++ s

def illegalOption (s : Bytes) : Bytes := Bytes.ofString "Illegal option -" ++ s

/-! ## Variables -/

def badName (s : Bytes) : Bytes := s ++ Bytes.ofString ": bad variable name"

/-- A setting of the form `name=value`, or a name alone. -/
def setting (s : Bytes) : Bytes × Option Bytes :=
  let name := s.takeWhile (· != Ascii.equals)
  (name, if name.length < s.length then some (s.drop (name.length + 1)) else none)

/-- Carries out settings one after the other, as long as the script goes on. -/
def State.settings (st : State) (name : String) (args : List Bytes)
    (also : State → Bytes → State) : State :=
  args.foldl (fun (st : State) a =>
    let (x, value) := setting a
    if !st.isRunning then st
    else if !isName x then st.failIn name (badName x)
    else
      let st := also st x
      match value with
      | some v => st.assign x v
      | none => st) (st.withStatus 0)

def exportNames (st : State) (args : List Bytes) : State := st.settings "export" args State.publish

/-- Sets variables that cannot be changed any more. -/
def fixNames (st : State) (args : List Bytes) : State :=
  let st := st.settings "readonly" args fun st _ => st
  if st.isRunning then { st with fixed := args.map (fun a => (setting a).1) ++ st.fixed } else st

/-- Sets variables of a function. -/
def setLocals (st : State) (args : List Bytes) : State :=
  match st.locals with
  | none => st.failIn "local" (Bytes.ofString "not in a function")
  | some _ =>
    st.settings "local" args fun st x =>
      { st with locals := st.locals.map fun old =>
          if old.any (·.1 == x) then old else (x, st.lookup? x) :: old }

def unsetNames (st : State) (args : List Bytes) : State :=
  let isOption (s : String) : Bool := args.head? = some (Bytes.ofString s)
  let names := if isOption "-f" || isOption "-v" then args.drop 1 else args
  names.foldl (fun (st : State) x =>
    if !st.isRunning then st
    else if isOption "-f" then { st with functions := st.functions.filter fun f => f.1 != x }
    else if !isName x then st.failIn "unset" (badName x)
    else if st.fixed.contains x then st.failIn "unset" (x ++ Bytes.ofString ": is read only")
    else { st.bind x none with functions := st.functions.filter fun f => f.1 != x })
      (st.withStatus 0)

/-! ## Reading a line -/

/-- The first line of a text, what follows it, and whether a newline ended it. A backslash quotes
    the byte after it, and takes a newline away, unless lines are read `raw`. -/
def readLine (raw : Bool) : Bytes → List Mark × Bytes × Bool
  | [] => ([], [], false)
  | b :: r =>
    if b = 10 then ([], r, true)
    else if b = backslash && !raw then
      match r with
      | [] => ([], [], false)
      | c :: r' =>
        let (ms, rest, ended) := readLine raw r'
        (if c = 10 then ms else ⟨c, true⟩ :: ms, rest, ended)
    else
      let (ms, rest, ended) := readLine raw r
      (⟨b, false⟩ :: ms, rest, ended)

/-- Deals the fields of a line out to names; the last one gets all that is left. -/
def dealOut (separators : Bytes) : List Bytes → List Mark → List (Bytes × Bytes)
  | [], _ => []
  | [x], ms =>
    let isBlank (m : Mark) : Bool := !m.quoted && isFieldBlank m.byte && separators.contains m.byte
    [(x, unmark ((ms.dropWhile isBlank).reverse.dropWhile isBlank).reverse)]
  | x :: xs, ms =>
    let isSeparator (m : Mark) : Bool := !m.quoted && separators.contains m.byte
    let isBlank (m : Mark) : Bool := isSeparator m && isFieldBlank m.byte
    let ms := ms.dropWhile isBlank
    let field := ms.takeWhile fun m => !isSeparator m
    let rest := (ms.drop field.length).dropWhile isBlank
    let rest := match rest with
      | m :: r => if isSeparator m then r.dropWhile isBlank else rest
      | [] => []
    (x, unmark field) :: dealOut separators xs rest

def readInto (st : State) (args : List Bytes) : State :=
  let raw := args.head? = some (Bytes.ofString "-r")
  let names := if raw then args.drop 1 else args
  match names, names.find? fun x => !isName x with
  | [], _ => st.refuse (Bytes.ofString "read: arg count")
  | _, some x => st.refuse (Bytes.ofString "read: " ++ badName x)
  | names, none =>
    let (ms, rest, ended) := readLine raw st.input
    let st := (dealOut st.separators names ms).foldl (fun st (x, v) => st.assign x v)
      { st with input := rest }
    if st.isRunning then st.withStatus (if ended then 0 else 1) else st

/-! ## Arguments and modes -/

/-- Turns a mode on or off; `none` when there is no such mode. -/
def State.mode? (st : State) (on : Bool) (letter : UInt8) : Option State :=
  if letter = 101 then some { st with strict := on }
  else if letter = 117 then some { st with demanding := on }
  else if letter = 120 then some { st with traced := on }
  else if (Bytes.ofString "abCfhImnvVE").contains letter then some st
  else none

/-- The letter of a mode with a name. -/
def modeLetter? (name : Bytes) : Option UInt8 :=
  match String.ofList (name.map fun b => Char.ofNat b.toNat) with
  | "errexit" => some 101
  | "nounset" => some 117
  | "xtrace" => some 120
  | "noglob" | "noexec" | "verbose" | "allexport" | "noclobber" | "monitor" | "notify" => some 97
  | _ => none

/-- Sets modes, and the arguments if some are given. -/
def setModes (st : State) : List Bytes → State
  | [] => st.withStatus 0
  | a :: rest =>
    match a with
    | sign :: letters =>
      if a = Bytes.ofString "--" then { st with arguments := rest, status := 0 }
      else if (sign = Ascii.dash || sign = 43) && !letters.isEmpty then
        let on := sign = Ascii.dash
        let named := letters.contains 111
        let plain := letters.filter (· != 111)
        match plain.find? fun l => (st.mode? on l).isNone with
        | some l => st.failIn "set" (illegalOption [l])
        | none =>
          let st := plain.foldl (fun (st : State) l => (st.mode? on l).getD st) st
          if named then
            match rest with
            | [] => st.withStatus 0
            | name :: rest' =>
              match modeLetter? name with
              | some l => setModes ((st.mode? on l).getD st) rest'
              | none => st.failIn "set" (illegalOption (Bytes.ofString "o " ++ name))
          else setModes st rest
      else { st with arguments := a :: rest, status := 0 }
    | [] => { st with arguments := a :: rest, status := 0 }

def shiftArguments (st : State) (args : List Bytes) : State :=
  match args with
  | a :: _ =>
    match digitsOf? a with
    | some n => go n
    | none => st.failIn "shift" (illegalNumber a)
  | [] => go 1
where
  /-- Drops arguments, if there are so many. -/
  go (n : Nat) : State :=
    if st.arguments.length < n then st.failIn "shift" (Bytes.ofString "can't shift that many")
    else { st with arguments := st.arguments.drop n, status := 0 }

/-! ## The course of a script -/

/-- The signals, from the first one on. -/
def signals : List String :=
  ["HUP", "INT", "QUIT", "ILL", "TRAP", "ABRT", "BUS", "FPE", "KILL", "USR1", "SEGV", "USR2",
   "PIPE", "ALRM", "TERM", "16", "CHLD", "CONT", "STOP", "TSTP", "TTIN", "TTOU", "URG", "XCPU",
   "XFSZ", "VTALRM", "PROF", "WINCH", "IO", "PWR", "SYS"]

/-- The number of a signal, given as a number or by its name in any letter case. -/
def signalNumber? (s : Bytes) : Option Nat :=
  match digitsOf? s with
  | some n => if n ≤ 64 then some n else none
  | none => (signals.findIdx? fun name => Bytes.ofString name == s.map Ascii.upper).map (· + 1)

/-- Ends the script. -/
def leave (st : State) (args : List Bytes) : State :=
  match args with
  | [] => { st with flow := .exited }
  | a :: _ =>
    match digitsOf? a with
    | some n => { st with flow := .exited, status := n % 256 }
    | none => st.failIn "exit" (illegalNumber a)

def returnWith (st : State) (args : List Bytes) : State :=
  match args with
  | [] => { st with flow := .returning }
  | a :: _ =>
    match digitsOf? a with
    | some n => { st with flow := .returning, status := n % 256 }
    | none => st.failIn "return" (illegalNumber a)

/-- Leaves loops; outside of loops nothing happens. -/
def leaveLoops (st : State) (name : String) (flow : Nat → Flow) (args : List Bytes) : State :=
  let go (n : Nat) : State :=
    if st.loops = 0 then st.withStatus 0 else { st with flow := flow (min n st.loops), status := 0 }
  match args with
  | [] => go 1
  | a :: _ =>
    match digitsOf? a with
    | some (n + 1) => go (n + 1)
    | _ => st.failIn name (illegalNumber a)

/-- Sets the script that is run at the end. -/
def trap (st : State) (args : List Bytes) : State :=
  match args with
  | [] => st.withStatus 0
  | action :: signals =>
    let isEnd (s : Bytes) : Bool := s = [48] || s = Bytes.ofString "EXIT"
    match signals.find? fun s => !isEnd s && (signalNumber? s).isNone with
    | some s => (st.remark "trap" (s ++ Bytes.ofString ": bad trap")).withStatus 1
    | none =>
      if signals.any isEnd then
        { st with farewell := if action = [Ascii.dash] then none else some action, status := 0 }
      else st.withStatus 0

/-! ## Directories -/

def changeDir (st : State) (args : List Bytes) : State :=
  let home := (st.lookup? (Bytes.ofString "HOME")).getD []
  let old := (st.lookup? (Bytes.ofString "OLDPWD")).getD st.files.cwd
  let back := args.head? = some [Ascii.dash]
  let d := if back then old else args.head?.getD home
  if d.isEmpty then st.withStatus 0
  else if st.files.isDir d then
    let cwd := st.absolute d
    let st :=
      (st.bind (Bytes.ofString "OLDPWD") (some st.files.cwd)).bind (Bytes.ofString "PWD") (some cwd)
    let st := { st with files := { st.files with cwd := cwd }, status := 0 }
    if back then st.print cwd else st
  else st.refuse (Bytes.ofString "cd: can't cd to " ++ d)

def pwd (st : State) (args : List Bytes) : State :=
  match args with
  | (45 :: c :: _) :: _ =>
    if c = 80 || c = 76 then (st.print st.files.cwd).withStatus 0
    else st.refuse (Bytes.ofString "pwd: " ++ illegalOption [c])
  | _ => (st.print st.files.cwd).withStatus 0

/-! ## Time and signals -/

/-- The milliseconds of a number of seconds with an optional fraction and unit. -/
def milliseconds? (s : Bytes) : Option Nat :=
  let whole := s.takeWhile Ascii.isDigit
  let (places, rest) := match s.drop whole.length with
    | 46 :: r =>
      let ds := r.takeWhile Ascii.isDigit
      (ds, r.drop ds.length)
    | r => ([], r)
  let unit : Option Nat := match rest with
    | [] | [115] => some 1
    | [109] => some 60
    | [104] => some 3600
    | [100] => some 86400
    | _ => none
  if whole.isEmpty && places.isEmpty then none
  else
    let ms := (digitsOf? whole).getD 0 * 1000 + (digitsOf? ((places ++ [48, 48, 48]).take 3)).getD 0
    unit.map (ms * ·)

def sleep (st : State) (args : List Bytes) : State :=
  match args.find? fun a => (milliseconds? a).isNone with
  | some a => st.misuse "sleep" (Bytes.ofString "invalid time interval " ++ inQuotes a)
  | none =>
    if args.isEmpty then st.misuse "sleep" (Bytes.ofString "missing operand")
    else (st.wait ((args.filterMap milliseconds?).foldl (· + ·) 0)).withStatus 0

/-- A signal that does not end the process that it is sent to. -/
def isHarmless (n : Nat) : Bool := [0, 17, 18, 23, 28].contains n

/-- Sends a signal to processes, of which the script knows only itself. -/
def sendSignal (st : State) (n : Nat) (targets : List Bytes) : State :=
  match targets.find? fun t => (integerOf? t).isNone with
  | some t => st.refuse (Bytes.ofString "kill: " ++ illegalNumber t)
  | none =>
    targets.foldl (fun st t =>
      if t = State.processNumber then if isHarmless n then st else { st with flow := .killed }
      else (st.complain (Bytes.ofString "kill: No such process\n")).withStatus 1) (st.withStatus 0)

def kill (st : State) (args : List Bytes) : State :=
  let usage := st.refuse (Bytes.ofString
    "kill: Usage: kill [-s sigspec | -signum | -sigspec] [pid | job]... or\nkill -l [exitstatus]")
  let send (n : Nat) (targets : List Bytes) : State :=
    if targets.isEmpty then usage else sendSignal st n targets
  match args with
  | [] => usage
  | (45 :: s) :: rest =>
    match signalNumber? s with
    | some n => send n rest
    | none =>
      match s, rest with
      | [108], a :: _ =>
        match digitsOf? a with
        | some n =>
          let n := if 128 < n then n - 128 else n
          match signals[n - 1]? with
          | some name => (st.print (Bytes.ofString name)).withStatus 0
          | none => st.refuse (Bytes.ofString "kill: " ++ illegalNumber a)
        | none => st.refuse (Bytes.ofString "kill: " ++ illegalNumber a)
      | [115], name :: targets =>
        match signalNumber? name with
        | some n => send n targets
        | none => st.refuse (Bytes.ofString "kill: invalid signal number or name: " ++ name)
      | [45], targets => send 15 targets
      | c :: _, _ => st.refuse (Bytes.ofString "kill: " ++ illegalOption [c])
      | [], _ => usage
  | targets => send 15 targets

/-! ## The environment -/

/-- Prints variables that commands get to see. -/
def printenv (st : State) (args : List Bytes) : State :=
  let env := st.environment
  if args.isEmpty then (st.printLines (env.map fun b => b.1 ++ Ascii.equals :: b.2)).withStatus 0
  else
    args.foldl (fun (st : State) x =>
      match env.find? fun b => b.1 == x with
      | some b => st.print b.2
      | none => st.withStatus 1) (st.withStatus 0)

end MarkupLint.Shell
