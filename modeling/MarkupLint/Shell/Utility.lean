/-
  The commands that scripts can call, by their names.
-/
import MarkupLint.Shell.Builtin
import MarkupLint.Shell.Editor
import MarkupLint.Shell.Search
import MarkupLint.Text.Utf8

namespace MarkupLint.Shell

/-- The commands of the shell whose failure ends the script. -/
def specials : List String :=
  [".", ":", "break", "continue", "eval", "exec", "exit", "export", "readonly", "return",
    "set", "shift",
   "trap", "unset"]

/-- The other commands of the shell. -/
def builtins : List String :=
  ["[", "cd", "command", "echo", "false", "hash", "jobs", "kill", "local", "printf", "pwd",
    "read", "test",
   "true", "type", "umask", "wait"]

/-- The commands that are programs of their own. -/
def utilities : List String :=
  ["[", "basename", "cat", "cp", "cut", "dirname", "echo", "env", "false", "grep", "head",
    "kill", "ls",
   "mkdir", "mv", "printenv", "printf", "pwd", "rm", "sed", "seq", "sh", "sleep", "sort",
     "tail", "tee",
   "test", "touch", "tr", "true", "uniq", "wc", "which"]

/-- The directory that programs are in. -/
def programDir : Bytes := Bytes.ofString "/usr/bin/"

def isAmong (names : List String) (name : Bytes) : Bool := names.any (Bytes.ofString · == name)

/-- What a name means where a command begins. -/
inductive Meaning where
  | keyword
  | function (body : Command)
  | special
  | builtin
  | program
  | unknown

def State.meaning (st : State) (name : Bytes) : Meaning :=
  if reserved.contains name then .keyword
  else
    match st.functions.find? fun f => f.1 == name with
    | some f => .function f.2
    | none =>
      if isAmong specials name then .special
      else if isAmong builtins name then .builtin
      else if isAmong utilities name then .program
      else .unknown

/-- The name of a command without the directories where programs are kept. -/
def commandName (s : Bytes) : Bytes :=
  match Bytes.rest? (Bytes.ofString "/bin/") s with
  | some r => r
  | none => (Bytes.rest? programDir s).getD s

/-- Tells how names would be called. -/
def locate (st : State) (names : List Bytes) : State :=
  match names with
  | [] => st.withStatus 0
  | name :: _ =>
    match st.meaning name with
    | .unknown => st.withStatus 127
    | .program => (st.print (programDir ++ name)).withStatus 0
    | _ => (st.print name).withStatus 0

/-- Tells what names mean. -/
def describe (st : State) (names : List Bytes) : State :=
  names.foldl (fun (st : State) name =>
    match st.meaning name with
    | .keyword => st.print (name ++ Bytes.ofString " is a shell keyword")
    | .function _ => st.print (name ++ Bytes.ofString " is a shell function")
    | .special => st.print (name ++ Bytes.ofString " is a special shell builtin")
    | .builtin => st.print (name ++ Bytes.ofString " is a shell builtin")
    | .program => st.print (name ++ Bytes.ofString " is " ++ programDir ++ name)
    | .unknown =>
      (st.print (name ++ Bytes.ofString ": not found")).withStatus 127) (st.withStatus 0)

/-- Tells where programs are. -/
def which (st : State) (names : List Bytes) : State :=
  names.foldl (fun (st : State) name =>
    if isAmong utilities name then st.print (programDir ++ name) else st.withStatus 1)
      (st.withStatus 0)

/-- There is no such command. -/
def State.noCommand (st : State) (name : Bytes) : State :=
  let found := name.isEmpty || (name.contains Ascii.slash && (st.node? name).isSome)
  let text := name ++ Bytes.ofString (if found then ": Permission denied" else ": not found")
  (st.complain text).withStatus (if found && !name.isEmpty then 126 else 127)

/-- A condition between brackets. -/
def bracket (st : State) (args : List Bytes) : State :=
  if args.getLast? = some [93] then Condition.state st "[" args.dropLast
  else st.refuse (Bytes.ofString "[: missing ]")

/-- Waits for other processes, of which there are none. -/
def awaitProcesses (st : State) (args : List Bytes) : State :=
  match args with
  | [] => st.withStatus 0
  | a :: _ =>
    if (digitsOf? a).isSome then st.withStatus 127
    else st.refuse (Bytes.ofString "wait: " ++ illegalNumber a)

/-- Calls a command that runs no other one. -/
def call (st : State) (name : Bytes) (args : List Bytes) : State :=
  match (commandName name).toText with
  | ":" | "true" | "hash" | "jobs" => st.withStatus 0
  | "false" => st.withStatus 1
  | "[" => bracket st args
  | "basename" => basename st args
  | "break" => leaveLoops st "break" .breaking args
  | "cat" => cat st args
  | "cd" => changeDir st args
  | "continue" => leaveLoops st "continue" .continuing args
  | "cp" => carry st "cp" false args
  | "cut" => cut st args
  | "dirname" => dirname st args
  | "echo" => echo st args
  | "exit" => leave st args
  | "export" => exportNames st args
  | "grep" => grep st args
  | "head" => head st args
  | "kill" => kill st args
  | "local" => setLocals st args
  | "ls" => ls st args
  | "mkdir" => mkdir st args
  | "mv" => carry st "mv" true args
  | "printenv" => printenv st args
  | "printf" => printf st args
  | "pwd" => pwd st args
  | "read" => readInto st args
  | "readonly" => fixNames st args
  | "return" => returnWith st args
  | "rm" => rm st args
  | "sed" => sed st args
  | "seq" => seq st args
  | "set" => setModes st args
  | "shift" => shiftArguments st args
  | "sleep" => sleep st args
  | "sort" => sort st args
  | "tail" => tail st args
  | "tee" => tee st args
  | "test" => Condition.state st "test" args
  | "touch" => touch st args
  | "tr" => tr st args
  | "trap" => trap st args
  | "type" => describe st args
  | "umask" => (if args.isEmpty then st.print (Bytes.ofString "0022") else st).withStatus 0
  | "uniq" => uniq st args
  | "unset" => unsetNames st args
  | "wait" => awaitProcesses st args
  | "wc" => count st args
  | "which" => which st args
  | _ => st.noCommand name

end MarkupLint.Shell
