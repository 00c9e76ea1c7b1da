/-
  The state that a script works on: files, variables, streams, and the time that has passed. A
  script ends by itself, or it is killed, by a signal or because its time is over.
-/
import MarkupLint.FileSystem
import MarkupLint.Shell.Command

namespace MarkupLint.Shell

/-- How far a script has come. -/
inductive Flow where
  | running
  /-- a function, or a script inside this one, is left -/
  | returning
  /-- so many loops are left -/
  | breaking (loops : Nat)
  /-- all but the last of so many loops are left, and that one goes on -/
  | continuing (loops : Nat)
  | exited
  | killed
  deriving DecidableEq, Repr

/-- Where the bytes of a stream go. -/
inductive Sink where
  | buffer (index : Nat)
  | nowhere
  | file (path : Bytes)
  deriving DecidableEq, Repr

structure State where
  files : FileSystem
  bindings : List (Bytes × Bytes)
  /-- the names of the variables that commands get to see -/
  exported : List Bytes := []
  /-- the names of the variables that cannot be changed -/
  fixed : List Bytes := []
  input : Bytes
  /-- what was printed: the output, the error messages, and then the output of each substitution
      that is being made -/
  buffers : List Bytes := [[], []]
  /-- where the streams go -/
  sinks : List (Nat × Sink) := [(1, .buffer 0), (2, .buffer 1)]
  /-- what the script is called -/
  name : Bytes := Bytes.ofString "sh"
  arguments : List Bytes := []
  functions : List (Bytes × Command) := []
  /-- the values that variables had outside of the function that is run, if one is -/
  locals : Option (List (Bytes × Option Bytes)) := none
  /-- the number of loops around the command -/
  loops : Nat := 0
  /-- the line of the command -/
  line : Nat := 1
  /-- the script that is run at the end -/
  farewell : Option Bytes := none
  /-- a command that fails ends the script -/
  strict : Bool := false
  /-- missing variables are an error -/
  demanding : Bool := false
  /-- commands are shown before they are run -/
  traced : Bool := false
  /-- the command is a condition, and may fail -/
  guarded : Bool := false
  /-- what the last command said: zero for success -/
  status : Nat := 0
  /-- what the last substitution of the command said -/
  substituted : Option Nat := none
  flow : Flow := .running
  /-- milliseconds since the start -/
  clock : Nat := 0
  /-- when the script is killed -/
  deadline : Option Nat := none

namespace State

/-- The number that the script goes by. -/
def processNumber : Bytes := Bytes.ofString "4711"

def isRunning (st : State) : Bool := st.flow = .running

def withStatus (st : State) (n : Nat) : State := { st with status := n }

/-! ## Streams -/

def sink? (st : State) (stream : Nat) : Option Sink :=
  (st.sinks.find? fun s => s.1 == stream).map fun s => s.2

/-- Lets a stream go somewhere, or nowhere at all. -/
def connect (st : State) (stream : Nat) (sink : Option Sink) : State :=
  { st with sinks := sink.toList.map (stream, ·) ++ st.sinks.filter fun s => s.1 != stream }

/-- Writes bytes to a stream. -/
def write (st : State) (stream : Nat) (s : Bytes) : State :=
  match st.sink? stream with
  | some (.buffer n) => { st with buffers := st.buffers.modify n (· ++ s) }
  | some (.file p) =>
    let old := (st.files.read p).toOption.getD []
    { st with files := st.files.write p (old ++ s) }
  | some .nowhere | none => st

/-- Writes a text and a newline to the output. -/
def print (st : State) (s : Bytes) : State := st.write 1 (s ++ [10])

/-- What `body` prints, and the state after it. -/
def capture (st : State) (body : State → State) : State × Bytes :=
  let n := st.buffers.length
  let inner := { st with buffers := st.buffers ++ [[]] }
  let after := body (inner.connect 1 (some (.buffer n)))
  ({ after with buffers := after.buffers.take n, sinks := st.sinks },
    (after.buffers.drop n).flatten)

/-! ## Variables -/

def lookup? (st : State) (name : Bytes) : Option Bytes :=
  (st.bindings.find? fun b => b.1 == name).map fun b => b.2

/-- Gives a variable its value, or takes it away, whether or not it can be changed. -/
def bind (st : State) (name : Bytes) (value : Option Bytes) : State :=
  { st with bindings := value.toList.map (name, ·) ++ st.bindings.filter fun b => b.1 != name }

def publish (st : State) (name : Bytes) : State := { st with exported := name :: st.exported }

/-- The variables that commands get to see. -/
def environment (st : State) : List (Bytes × Bytes) :=
  st.bindings.filter fun b => st.exported.contains b.1

/-! ## Time and complaints -/

/-- Lets time pass. -/
def wait (st : State) (ms : Nat) : State :=
  let st := { st with clock := st.clock + ms }
  match st.deadline with
  | some d => if d ≤ st.clock then { st with flow := .killed } else st
  | none => st

/-- An error message of the shell itself. -/
def complain (st : State) (text : Bytes) : State :=
  st.write 2 (st.name ++ Bytes.ofString (": " ++ toString st.line ++ ": ") ++ text ++ [10])

/-- The command fails with a complaint. -/
def refuse (st : State) (text : Bytes) : State := (st.complain text).withStatus 2

/-- The script ends with a complaint. -/
def fail (st : State) (text : Bytes) : State := { st.refuse text with flow := .exited }

/-- Gives a variable its value. -/
def assign (st : State) (name value : Bytes) : State :=
  if st.fixed.contains name then st.fail (name ++ Bytes.ofString ": is read only")
  else st.bind name (some value)

/-! ## Files -/

/-- The absolute form of a path. -/
def absolute (st : State) (p : Bytes) : Bytes := Path.absolute st.files.cwd p

/-- The file that is always empty, and takes everything. -/
def nullPath : Bytes := Bytes.ofString "/dev/null"

/-- The name of the input among the files. -/
def inputPath : Bytes := Bytes.ofString "/dev/stdin"

/-- Reads a file to its end. -/
def take (st : State) (p : Bytes) : Except FileError (Bytes × State) :=
  if p = nullPath then .ok ([], st)
  else if p = inputPath then .ok (st.input, { st with input := [] })
  else (st.files.read p).map (·, st)

/-- What a path leads to. -/
def node? (st : State) (p : Bytes) : Option Node :=
  if p = nullPath || p = inputPath then some (.file []) else (st.files.node p).toOption

end State
end MarkupLint.Shell
