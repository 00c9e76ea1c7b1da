/-
  Lint engines: what turns a document and its configuration into issues. One is built in, the other
  calls a command.
-/
import MarkupLint.LintOutput
import MarkupLint.Log
import MarkupLint.Shell.Run

namespace MarkupLint

/-- What an engine is given: the text, the path of the document (empty when it has none), the root
    of the workspace (empty when there is none), the configuration, the files around, and whether
    the work was already cancelled. -/
structure LintRequest where
  text : Bytes
  path : Bytes
  root : Bytes
  config : Config
  files : FileSystem
  canceled : Bool

/-- What an engine answers. -/
structure LintReply where
  result : Except Failure (Option (List Issue))
  log : List LogEntry := []

/-- An engine answers a request, or is still at work. -/
abbrev Engine := LintRequest → Option LintReply

/-- The engine that is built in. -/
def Engine.native : Engine := fun r =>
  some ⟨((Rule.lint r.config r.text r.canceled).mapError Failure.ofLintError).map some, []⟩

/-! ## Configurations for commands -/

namespace ConfigValue

/-- Numbers in JSON: positional from a millionth up to below 10 to the 21st. -/
def jsonLayout : DecimalLayout := ⟨-6, 21, 1⟩

mutual

/-- The compact JSON text of a value; a number that is not finite has none, and is the error. -/
def jsonText : ConfigValue → Except Binary64 (List Char)
  | .null => .ok "null".toList
  | .bool true => .ok "true".toList
  | .bool false => .ok "false".toList
  | .number (.finite negative m e) =>
    .ok ((Shortest.ofFinite negative m e).render jsonLayout).toList
  | .number x => .error x
  | .integer n => .ok (integerText n).toList
  | .text s => .ok (Json.renderString s)
  | .texts ss => .ok ('[' :: [','].intercalate (ss.map Json.renderString) ++ [']'])
  | .list vs => do pure ('[' :: [','].intercalate (← elementTexts vs) ++ [']'])
  | .object ms => do pure ('\x7b' :: [','].intercalate (← memberTexts ms) ++ ['\x7d'])

/-- The texts of the elements of a list. -/
def elementTexts : List ConfigValue → Except Binary64 (List (List Char))
  | [] => .ok []
  | v :: vs => do pure ((← v.jsonText) :: (← elementTexts vs))

/-- The texts of the members of an object. -/
def memberTexts : List (String × ConfigValue) → Except Binary64 (List (List Char))
  | [] => .ok []
  | (k, v) :: ms => do pure ((Json.renderString k ++ ':' :: (← v.jsonText)) :: (← memberTexts ms))

end

end ConfigValue

/-- The compact JSON text of a configuration, its keys in order. -/
def Config.jsonText (c : Config) : Except Failure String :=
  match ConfigValue.jsonText (.object (Table.sorted c)) with
  | .ok cs => .ok (String.ofList cs)
  | .error x =>
    .error (.plain ("cannot encode config: json: unsupported value: " ++ ConfigValue.numberText x))

/-! ## Commands -/

/-- An outside linter: a command that gets the document as its input, the formats of its output, and
    variables of the form `name=value` for its environment. -/
structure LintCommand where
  command : Bytes
  formats : List String
  env : List Bytes := []

namespace LintCommand

def inputMark : Bytes := Bytes.ofString "$\x7bINPUT\x7d"
def extensionMark : Bytes := Bytes.ofString "$\x7bFILEEXT\x7d"
def rootMark : Bytes := Bytes.ofString "$\x7bROOT\x7d"
def configMark : Bytes := Bytes.ofString "$\x7bCONFIG\x7d"

/-- A path with a backslash before each parenthesis. -/
def escapeParens (p : Bytes) : Bytes :=
  p.flatMap fun b =>
    if b = Shell.openParen || b = Shell.closeParen then [Shell.backslash, b] else [b]

/-- The directory that a command runs in: the root of the workspace, else that of the document. -/
def workingDir (path root : Bytes) : Bytes :=
  if !root.isEmpty then root else if !path.isEmpty then Path.dir path else []

/-- The extension of a path without its dot. -/
def extension (path : Bytes) : Bytes := (Path.ext path).drop 1

/-- The command with the path, its extension and the root put in for their marks, one mark after the
    other. -/
def fillMarks (command path root : Bytes) : Bytes :=
  ((command.replaceAll inputMark (escapeParens path)).replaceAll extensionMark
    (extension path)).replaceAll rootMark (escapeParens root)

/-- A path for a new file that holds a configuration, none of that name being there yet. -/
def tempPath (fs : FileSystem) : Nat → Nat → Bytes
  | 0, n => name n
  | fuel + 1, n => if (fs.node (name n)).toOption.isSome then tempPath fs fuel (n + 1) else name n
where
  /-- The `n`-th candidate. -/
  name (n : Nat) : Bytes := Bytes.ofString ("/tmp/htmllintrc-" ++ toString n ++ ".json")

/-- Where the configuration is put for the command, when the command asks for it. -/
def placeConfig (c : LintCommand) (r : LintRequest) : Except Failure (Bytes × FileSystem) :=
  if c.command.holds configMark then do
    let text ← r.config.jsonText
    let path := tempPath r.files 1000 0
    pure (c.command.replaceAll configMark (escapeParens path),
      r.files.write path (Bytes.ofString text))
  else pure (c.command, r.files)

/-- The variables of a command: of two settings of a name the last one counts. -/
def bindings (env : List Bytes) : List (Bytes × Bytes) :=
  env.reverse.filterMap fun e =>
    let name := e.takeWhile (· != Ascii.equals)
    if name.length < e.length then some (name, e.drop (name.length + 1)) else none

/-- The longest word that a command or a variable may be, in bytes. -/
def maxWord : Nat := 131071

/-- Why a command cannot be started in a directory, if it cannot. -/
def obstacle? (command dir : Bytes) (files : FileSystem) (env : List Bytes) : Option Failure :=
  let unstarted (reason : String) : Failure := .plain ("fork/exec /usr/bin/sh: " ++ reason)
  if env.any (·.contains 0) then some (.plain "exec: environment variable contains NUL")
  else if command.contains 0 then some (unstarted FileError.invalid.reason)
  else
    match if dir.isEmpty then none else some (files.node dir) with
    | some (.error .missing) => some .noDirectory
    | some (.error e) => some (unstarted e.reason)
    | some (.ok (.file _)) => some (unstarted FileError.notDirectory.reason)
    | _ =>
      if (command :: env).any (maxWord < ·.length) then some (unstarted "argument list too long")
      else none

/-- The output of a command, or how it failed. A positive status means that the linter found
    something, so it is a failure only when there is nothing but error messages; a command that was
    killed has no output. -/
def output (command dir : Bytes) (files : FileSystem) (env : List Bytes) (input : Bytes)
    (canceled : Bool) (deadline : Option Nat) : Except Failure Bytes :=
  let invocation := "sh -c " ++ command.toText
  if canceled then .error (.remark invocation .canceled)
  else
    match obstacle? command dir files env with
    | some f => .error (.remark invocation f)
    | none =>
      let cwd := if dir.isEmpty then files.cwd else Path.absolute files.cwd dir
      let o := Shell.runScript command { files with cwd := cwd } (bindings env) input deadline
      match o.ending with
      | .killed => .ok []
      | .exited status =>
        if 0 < status && o.output.isEmpty && !o.errors.isEmpty then
          .error (.plain (invocation ++ ": exit code " ++ toString status ++ ": " ++
            Blank.trim o.errors.toText))
        else .ok o.output

/-- Lints a document with a command; `deadline` is when it is killed, in milliseconds. -/
def lint (c : LintCommand) (r : LintRequest) (deadline : Option Nat) : LintReply :=
  match c.placeConfig r with
  | .error f => ⟨.error f, []⟩
  | .ok (command, files) =>
    let dir := workingDir r.path r.root
    let command := fillMarks command r.path dir
    let out := output command dir files c.env r.text r.canceled deadline
    let log : List LogEntry :=
      [⟨.info, command.toText⟩, ⟨.debug, (out.toOption.getD []).toText⟩]
    match out with
    | .error f => ⟨.error f, log⟩
    | .ok s => ⟨LintOutput.issues c.formats s, log⟩

end LintCommand

/-- The engine that calls a command. -/
def Engine.command (c : LintCommand) : Engine := fun r => some (c.lint r none)

end MarkupLint
