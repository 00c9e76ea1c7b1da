/-
  The program: it hands its arguments, its files and the messages of its client to the library, and
  prints what comes back.
-/
import MarkupLint.CommandLine.Run
import MarkupLint.Server.Frame

namespace MarkupLint.Program

/-- The name of the system that the program runs on. -/
def runtime : String := "lean4"

/-! ## Files -/

/-- The file names that the library looks for above a document. -/
def markers : List Bytes := [".htmllintrc", "package.json"].map Bytes.ofString

/-- Takes over what a path leads to: a file, a directory without its entries, or nothing. -/
def load (fs : FileSystem) (path : Bytes) : IO FileSystem := do
  let place := (← IO.currentDir) / path.toText
  if ← place.isDir then return fs.makeDir path
  else if ← place.pathExists then
    return fs.write path (← IO.FS.readBinFile place).toList
  else return fs

/-- Takes over what matters to a document: itself, and the directories above it with their
    markers. -/
def loadAround (fs : FileSystem) (document : Bytes) : IO FileSystem := do
  let path := Path.absolute fs.cwd document
  let dirs := Path.upward path
  let fs ← dirs.reverse.foldlM load fs
  let fs ← (dirs.flatMap fun d => markers.map (Path.join d)).foldlM load fs
  load fs path

/-- The files around some documents. -/
def filesAround (documents : List Bytes) : IO FileSystem := do
  let cwd := Bytes.ofString (← IO.currentDir).toString
  let fs ← load { FileSystem.empty with cwd := cwd } cwd
  documents.foldlM loadAround fs

/-- The paths that arguments may name, on their own or as the values of flags. -/
def namedPaths (args : List String) : List Bytes :=
  let texts := args.flatMap fun a => [some a, (CommandFlags.splitValue a.toList).2]
  (texts.filterMap id).map Bytes.ofString |>.filter (!·.isEmpty)

/-! ## Output -/

/-- Adds lines to the log. -/
def writeLog (o : Outcome) (entries : List LogEntry) : IO Unit := do
  let lines := o.logger.lines entries
  if lines.isEmpty then return
  match o.logFile with
  | none => lines.forM IO.eprintln
  | some path =>
    let handle ← IO.FS.Handle.mk ((← IO.currentDir) / path.toText) .append
    lines.forM handle.putStrLn

/-- Ends the program. -/
def finish (o : Outcome) : IO UInt32 := do
  IO.print o.output
  match o.failure with
  | none => return 0
  | some f =>
    IO.eprintln (programName ++ ": " ++ f.message)
    return 1

/-! ## Serving -/

/-- Reads a header: the number of bytes of the message. -/
partial def readHeader (input : IO.FS.Stream) (known : Nat) : IO (Option Nat) := do
  let line ← input.getLine
  match Frame.content? (Bytes.ofString line) with
  | none => return none
  | some [] => return if known = 0 then none else some known
  | some content =>
    match Frame.length? known content with
    | none => return none
    | some known => readHeader input known

/-- Reads so many bytes, unless the input ends before. -/
partial def readBytes (input : IO.FS.Stream) (n : Nat) (before : ByteArray) : IO ByteArray := do
  if n = 0 then return before
  let part ← input.read (USize.ofNat n)
  if part.isEmpty then return before
  readBytes input (n - part.size) (before ++ part)

/-- Reads a message; `none` when there is none any more. -/
def readMessage (input : IO.FS.Stream) : IO (Option Json) := do
  match ← readHeader input 0 with
  | none => return none
  | some n => return Json.ofBytes? (← readBytes input n .empty).toList

/-- Lets out what the server lets out. -/
def emit (o : Outcome) (output : IO.FS.Stream) (out : List ServerOutput) : IO Unit :=
  out.forM fun
    | .send m => do
      output.putStr (Frame.render m.toJson)
      output.flush
    | .log e => writeLog o [e]
    | .refused _ => return

/-- The files around the documents that are open, and around the root of the workspace. -/
def filesFor (s : Server) : IO FileSystem :=
  filesAround ([s.workspace.root] ++ s.workspace.documents.map (·.2.path) |>.filter (!·.isEmpty))

/-- The markers whose content differs between two states of the files. -/
def changedMarkers (s : Server) (before after : FileSystem) : List Bytes :=
  let dirs := (s.workspace.documents.flatMap fun (_, d) => Path.upward d.path).eraseDups
  (dirs.flatMap fun d => markers.map (Path.join d)).filter fun p =>
    (before.read p).toOption != (after.read p).toOption

/-- Tells the server's own watcher of changes. -/
def tellChanges (fs : FileSystem) (s : Server) (paths : List Bytes) : Reaction :=
  let events := paths.map fun p => WatchEvent.changed { write := true } p
  (events ++ [WatchEvent.expired]).foldl (fun r e =>
    r.andThen fun s => (s.step fs (.watch e)).getD (s, [])) (s, [])

/-- How long the program rests when there is nothing to do, in milliseconds. -/
def rest : UInt32 := 5

/-- Serves the client until it is gone. `due` is the time at which pending timers fire. -/
partial def serve (service : Service) (input output : IO.FS.Stream) (s : Server)
  (files : FileSystem)
    (due : Nat) (next : Task (Except IO.Error (Option Json))) : IO Server := do
  let go (r : Reaction) (files : FileSystem) (due : Nat)
      (next : Task (Except IO.Error (Option Json))) : IO Server := do
    emit service.outcome output r.2
    serve service input output r.1 files due next
  let now ← IO.monoMsNow
  if ← IO.hasFinished next then
    match next.get with
    | .ok (some j) =>
      let r := s.deliver (← filesFor s) j
      if !r.1.isConnected then return r.1
      let delay := r.1.debounce.toNat / 1000000
      go r files (now + delay) (← (readMessage input).asTask)
    | _ => return s
  else
    let after ← filesFor s
    let changed := if s.watcher.isSome then changedMarkers s files after else []
    if !changed.isEmpty then go (tellChanges after s changed) after now next
    else if s.pending.isEmpty || due ≤ now then
      IO.sleep rest
      go (s.settle { service.env with files := after } none) after due next
    else
      IO.sleep rest
      go (s, []) after due next

end MarkupLint.Program

open MarkupLint Program in
def main (args : List String) : IO UInt32 := do
  let files ← filesAround (namedPaths args)
  match start { files := files, runtime := runtime } args with
  | .over o =>
    writeLog o o.log
    finish o
  | .serving service =>
    writeLog service.outcome service.outcome.log
    let input ← IO.getStdin
    let first ← (readMessage input).asTask
    let s ← serve service input (← IO.getStdout) service.server files 0 first
    let o := service.finish s
    writeLog o (o.log.drop service.outcome.log.length)
    finish o
