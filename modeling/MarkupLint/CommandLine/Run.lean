/-
  Running the program: from its arguments to what it prints, or to a server that is ready for its
  client.
-/
import MarkupLint.CommandLine.Command
import MarkupLint.CommandLine.Lint
import MarkupLint.Server.Settle

namespace MarkupLint

/-- What the program finds around it: the files, and the name of the system that it runs on. -/
structure Host where
  files : FileSystem
  runtime : String

/-- What a run of the program leaves behind. -/
structure Outcome where
  output : String := ""
  failure : Option Failure := none
  logger : Logger := ⟨.warn⟩
  /-- the path of the log, if it is a file -/
  logFile : Option Bytes := none
  log : List LogEntry := []

/-- A server that is ready for its client, and what the run has left behind so far. -/
structure Service where
  server : Server
  env : Workspace.Surroundings
  outcome : Outcome

/-- How a run of the program starts out. -/
inductive Start where
  | over (outcome : Outcome)
  | serving (service : Service)

namespace Outcome

/-- The lines of the log that are written. -/
def logLines (o : Outcome) : List String := o.logger.lines o.log

/-- The text that is added to the log. -/
def logText (o : Outcome) : String := String.join (o.logLines.map (· ++ "\n"))

end Outcome

/-! ## The log file -/

/-- Why a log file cannot be opened. -/
def logFileFailure (path : Bytes) : FileError → Failure
  | .isDirectory => .plain ("open " ++ path.toText ++ ": is a directory")
  | e => .file path e

/-- Sets the log up. The level counts even when the file cannot be opened. -/
def setUpLog (flags : CommandFlags) (files : FileSystem) : Outcome × FileSystem :=
  match LogLevel.ofName? flags.logLevel with
  | none => ({ failure := some (.plain (LogLevel.unknownMessage flags.logLevel)) }, files)
  | some level =>
    let o : Outcome := { logger := ⟨level⟩ }
    if flags.logFile = "" then (o, files)
    else
      let path := Bytes.ofString flags.logFile
      match files.openForWriting path with
      | .error e =>
        ({ o with failure := some (.remark "cannot open log file" (logFileFailure path e)) }, files)
      | .ok files => ({ o with logFile := some (Path.absolute files.cwd path) }, files)

/-! ## Commands -/

/-- The linter that the flags ask for. -/
def engineOf (flags : CommandFlags) : Engine :=
  if flags.engineCommand = "" then .native
  else .command ⟨Bytes.ofString flags.engineCommand, flags.engineFormats, []⟩

/-- The version in the format that is asked for, letter case aside. -/
def versionText (runtime format : String) : Except Failure String :=
  let format := LowerCase.ofString format
  match format with
  | "pretty" => .ok (programName ++ " " ++ programVersion ++ " (" ++ runtime ++ ")\n")
  | "json" =>
    let member (k v : String) : String := "  " ++ (Json.str k).render ++ ": " ++ (Json.str v).render
    .ok ("\x7b\n" ++ ",\n".intercalate [member "tool" programName, member "version" programVersion,
      member "go_version" runtime] ++ "\n\x7d\n")
  | _ => .error (.plain ("unknown format " ++ Quoted.ofString format))

/-- What the version switch prints. -/
def versionLine : String := programName ++ " version " ++ programVersion ++ "\n"

/-- What the program is for. -/
def helpText : String := "Language server that lints HTML documents with htmllint rules\n"

/-- Carries out a command, once the log is set up. -/
def Command.perform (c : Command) (host : Host) (flags : CommandFlags) (operands : List String)
    (o : Outcome) : Start :=
  let env : Workspace.Surroundings := { files := host.files, engine := engineOf flags }
  match c with
  | .version =>
    match versionText host.runtime flags.format with
    | .ok text => .over { o with output := text }
    | .error f => .over { o with failure := some f }
  | .lint =>
    let r := LintReport.ofFiles env {} operands
    .over { o with output := String.join r.lines, failure := r.verdict, log := r.log }
  | .serve =>
    .serving
      { server := { debounce := flags.lintDebounce }
        env := env
        outcome := { o with
          log := [⟨.info, programName ++ " " ++ programVersion ++ " starting"⟩] } }

/-- Starts the program. Of several faults in its arguments the first one counts: no such command, a
    flag that is wrong, a wrong number of arguments, a log that cannot be set up. -/
def start (host : Host) (args : List String) : Start :=
  let failed (f : Failure) : Start := .over { failure := some f }
  match Command.find args with
  | .error f => failed f
  | .ok (c, args) =>
    match CommandFlags.read c.flags {} [] args with
    | .error f => failed f
    | .ok (flags, operands) =>
      if flags.showsHelp then .over { output := helpText }
      else if flags.showsVersion then .over { output := versionLine }
      else
        match c.checkOperands operands with
        | .error f => failed f
        | .ok _ =>
          let (o, files) := setUpLog flags host.files
          if o.failure.isSome then .over o
          else c.perform { host with files := files } flags operands o

/-- What is left behind when the client has gone. It is a failure if the client has not asked to
    shut down. -/
def Service.finish (s : Service) (server : Server) : Outcome :=
  if server.isShutDown then
    { s.outcome with log := s.outcome.log ++ [⟨.info, "connection closed"⟩] }
  else { s.outcome with failure := some (Server.connectionLost "") }

end MarkupLint
