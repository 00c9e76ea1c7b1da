/-
  The commands of the program, and how the arguments name one.
-/
import MarkupLint.CommandLine.Flags
import MarkupLint.Text.LowerCase

namespace MarkupLint

/-- The name of the program. -/
def programName : String := "htmllint-ls"

/-- The version of the program. -/
def programVersion : String := "0.1.0"

/-- What the program can be asked to do. -/
inductive Command where
  /-- to serve a client, which is what it does when nothing is named -/
  | serve
  | lint
  | version
  deriving DecidableEq, Repr

namespace Command

/-- The command of a name. -/
def ofName? : String → Option Command
  | "lint" => some .lint
  | "version" => some .version
  | _ => none

/-- The flags that go with all commands. -/
def commonFlags : List Flag :=
  [.logFile, .logLevel, .engineCommand, .engineFormat, .help]

/-- The flags that go with a command. -/
def flags : Command → List Flag
  | .serve => commonFlags ++ [.lintDebounce, .version]
  | .lint => commonFlags
  | .version => commonFlags ++ [.format]

/-! ## Finding the command -/

/-- An argument that looks like a flag whose value is the next argument. -/
def takesNext (s : String) : Bool :=
  !s.toList.contains '=' && (s.startsWith "--" || (s.startsWith "-" && s.utf8ByteSize == 2))

/-- The arguments that are neither flags nor their values. A flag whose value may be the last
    argument ends them. -/
def operands : List String → List String
  | [] => []
  | s :: rest =>
    if s = "--" then []
    else if takesNext s then
      match rest with
      | [] | [_] => []
      | _ :: rest => operands rest
    else if s ≠ "" && !s.startsWith "-" then s :: operands rest
    else operands rest

/-- The arguments without the one that names the command. -/
def withoutName (name : String) : List String → List String
  | [] => []
  | s :: rest =>
    if s = "--" then s :: rest
    else if takesNext s then
      match rest with
      | [] => [s]
      | v :: rest => s :: v :: withoutName name rest
    else if s = name then rest
    else s :: withoutName name rest

/-- The distances of a text with one more letter `b` from the beginnings of another text, by those
    of the text without it. -/
def nextRow (b : UInt8) : Bytes → Nat → Nat → List Nat → List Nat
  | [], _, _, _ => []
  | _, _, _, [] => []
  | c :: t, diagonal, left, above :: row =>
    let d := if b = c then diagonal else 1 + min diagonal (min left above)
    d :: nextRow b t above d row

/-- How many letters have to be put in, taken out or replaced to come from one text to the other. -/
def distance (s t : Bytes) : Nat :=
  let first := (List.range t.length).map (· + 1)
  let (_, row) := s.foldl (fun (n, row) b => (n + 1, nextRow b t n (n + 1) row)) (0, first)
  row.getLast?.getD s.length

/-- The names that may be meant by one that is not known. -/
def suggestions (s : String) : List String :=
  let low := Bytes.ofString (LowerCase.ofString s)
  ["lint", "version", "completion"].filter fun name =>
    let n := Bytes.ofString name
    distance low n ≤ 2 || low.isPrefixOf n

/-- The failure of a name that is not known. -/
def unknown (s parent hint : String) : Failure :=
  .plain ("unknown command " ++ Quoted.ofString s ++ " for " ++ Quoted.ofString parent ++ hint)

/-- The suggestions in words. -/
def hint (names : List String) : String :=
  if names.isEmpty then ""
  else "\n\nDid you mean this?\n" ++ String.join (names.map fun n => "\t" ++ n ++ "\n")

/-- The command that the arguments name, and the arguments for it. -/
def find (args : List String) : Except Failure (Command × List String) :=
  match operands args with
  | [] => .ok (.serve, args)
  | name :: _ =>
    match ofName? name with
    | some c => .ok (c, withoutName name args)
    | none => .error (unknown name programName (hint (suggestions name)))

/-- Linting needs a file, and the version nothing. -/
def checkOperands : Command → List String → Except Failure Unit
  | .serve, _ => .ok ()
  | .lint, [] => .error (.plain "requires at least 1 arg(s), only received 0")
  | .lint, _ :: _ => .ok ()
  | .version, [] => .ok ()
  | .version, s :: _ => .error (unknown s (programName ++ " version") "")

end Command
end MarkupLint
