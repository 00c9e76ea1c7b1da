/-
  The state of the server, and when it lints a document.

  Linting a document is put off for a while, in case the document changes again: a timer is set,
  which takes the place of one that is pending for the same document. When the timer fires it starts
  a run, and the run of the same document that is still going on is cancelled. Timers and runs are
  numbered in the order in which they are made and never reused, so that a timer which fires too
  late can be told from the one that is pending.

  What a message asks for is done in tasks, each of which nobody can come between; timers and runs
  can come between two of them.
-/
import MarkupLint.Duration
import MarkupLint.Server.Message
import MarkupLint.Validation.Workspace
import MarkupLint.Watcher

namespace MarkupLint

/-- A timer after which a document is linted. -/
structure LintTimer where
  uri : String
  trigger : Trigger
  deriving DecidableEq, Repr

/-- Where a run stands. -/
inductive RunPhase where
  /-- about to begin its pass over the document -/
  | ready
  | passing (pass : Nat)
  /-- about to tell of its failure, if there is one -/
  | reporting (failure : Option Failure)
  /-- about to leave the table of runs -/
  | leaving
  | ended
  deriving DecidableEq, Repr

/-- The linting of a document. -/
structure LintRun where
  uri : String
  trigger : Trigger
  canceled : Bool := false
  phase : RunPhase := .ready
  deriving DecidableEq, Repr

/-- The parts of the work on a message. -/
inductive ServerTask where
  | setDebounce (delay : Int)
  | configure (config : ClientConfig)
  | openDocument (uri language : String) (version : Int) (text : Bytes)
  | changeDocument (uri : String) (text : Bytes) (version : Option Int)
  /-- a document leaves the table; its settings are forgotten in a task of their own -/
  | dropDocument (uri : String)
  | forgetSettings (uri : String)
  | schedule (uri : String) (trigger : Trigger)
  | cancelLinting (uri : String)
  | noteShutdown
  | stopTimers
  | cancelWork
  | disconnect
  | send (message : ServerMessage)

/-- The state of the server. -/
structure Server where
  workspace : Workspace := {}
  /-- how long linting is put off, in nanoseconds -/
  debounce : Int := 0
  /-- all timers ever set, by their numbers -/
  timers : List LintTimer := []
  /-- the timers that have not fired and were not stopped, by their documents -/
  pending : Table Nat := []
  /-- all runs ever started, by their numbers -/
  runs : List LintRun := []
  /-- the last run of each document, until it ends -/
  running : Table Nat := []
  /-- the client has asked to shut down -/
  isShutDown : Bool := false
  /-- all work is cancelled, now and from now on -/
  isClosed : Bool := false
  isConnected : Bool := true
  /-- the server's own watcher, for a client that does not watch files -/
  watcher : Option Watcher := none
  /-- the open requests to the client for settings, with the calls that made them -/
  requests : List (Nat × Nat) := []
  /-- how many requests were made to the client -/
  requestCount : Nat := 0
  /-- what is left to do about the message that came in last -/
  tasks : List ServerTask := []

/-- What the server lets out. -/
inductive ServerOutput where
  | send (message : ServerMessage)
  | log (entry : LogEntry)
  /-- a notification of the client could not be handled -/
  | refused (failure : Failure)

/-- The server after a step, and what the step let out. -/
abbrev Reaction := Server × List ServerOutput

/-- A step after the others. -/
def Reaction.andThen (r : Reaction) (f : Server → Reaction) : Reaction :=
  let (s, out) := f r.1
  (s, r.2 ++ out)

namespace Server

/-- Sends a message, if there still is a client to send it to. -/
def post (s : Server) (m : ServerMessage) : List ServerOutput :=
  if s.isConnected then [.send m] else []

/-- Shows the client a line of a log; the lower the type, the more it matters. -/
def logMessage (s : Server) (type : Int) (text : String) : List ServerOutput :=
  s.post (.notification "window/logMessage" (.obj [("type", .int type), ("message", .str text)]))

/-! ## Timers -/

/-- Sets the timer of a document. -/
def schedule (s : Server) (uri : String) (trigger : Trigger) : Reaction :=
  ({ s with
      timers := s.timers ++ [⟨uri, trigger⟩]
      pending := s.pending.put uri s.timers.length },
    if (s.pending.get? uri).isSome then
      [.log ⟨.debug, "lint debounced: " ++ Duration.text s.debounce⟩]
    else [])

/-- Sets the timers of all open documents. -/
def scheduleAll (s : Server) (trigger : Trigger) : Reaction :=
  s.workspace.documents.uris.foldl (fun r uri => r.andThen (·.schedule uri trigger)) (s, [])

/-! ## Runs -/

/-- The run was cancelled, or everything was. -/
def isCanceled (s : Server) (r : LintRun) : Bool := r.canceled || s.isClosed

/-- The call for settings of a run. -/
def call? (s : Server) (r : LintRun) : Option Nat :=
  match r.phase with
  | .passing p => s.workspace.passes[p]?.bind (·.call)
  | _ => none

/-- Cancels a run and its call for settings. -/
def cancelRun (s : Server) (n : Nat) : Server :=
  let s := { s with runs := s.runs.modify n fun r => { r with canceled := true } }
  match s.runs[n]?.bind s.call? with
  | some c => { s with workspace := s.workspace.change (.cancel c) }
  | none => s

/-- A timer fires. Only the one that is pending starts a run. -/
def fire (s : Server) (t : Nat) : Option Server :=
  match s.timers[t]? with
  | none => none
  | some timer =>
    if s.pending.get? timer.uri = some t then
      let s := { s with pending := s.pending.erase timer.uri }
      let s := match s.running.get? timer.uri with
        | some n => s.cancelRun n
        | none => s
      some { s with
        runs := s.runs ++ [{ uri := timer.uri, trigger := timer.trigger }]
        running := s.running.put timer.uri s.runs.length }
    else some s

/-- A run ends: it leaves the table of runs, unless a newer one has its place. -/
def leave (s : Server) (n : Nat) (uri : String) : Server :=
  { s with
    runs := s.runs.modify n fun r => { r with canceled := true, phase := .ended }
    running := if s.running.get? uri = some n then s.running.erase uri else s.running }

/-- Gives up linting a document: its timer is stopped and its run is cancelled. -/
def cancelLinting (s : Server) (uri : String) : Server :=
  let s := { s with pending := s.pending.erase uri }
  match s.running.get? uri with
  | some n =>
    let s := s.cancelRun n
    { s with running := s.running.erase uri }
  | none => s

/-- Stops all timers. -/
def stopTimers (s : Server) : Server := { s with pending := [] }

/-- Cancels all work, now and from now on. -/
def cancelWork (s : Server) : Server :=
  let calls := List.range s.workspace.settings.calls.length
  { s with
    watcher := none
    isClosed := true
    workspace := calls.foldl (fun w c => w.change (.cancel c)) s.workspace }

/-! ## Tasks -/

/-- A delay counts only if it is positive. -/
def setDebounce (s : Server) (delay : Int) : Server :=
  if 0 < delay then { s with debounce := delay } else s

/-- Gives a document a new text. Only a document that is open has one. -/
def changeDocument (s : Server) (uri : String) (text : Bytes) (version : Option Int) : Server :=
  match s.workspace.changeDocument uri text version with
  | .ok w => { s with workspace := w }
  | .error _ => s

/-- Does a task. -/
def perform (s : Server) : ServerTask → Reaction
  | .setDebounce delay => (s.setDebounce delay, [])
  | .configure config => ({ s with workspace := s.workspace.configure (some config) }, [])
  | .openDocument uri language version text =>
    ({ s with workspace := s.workspace.openDocument uri language version text }, [])
  | .changeDocument uri text version => (s.changeDocument uri text version, [])
  | .dropDocument uri => ({ s with workspace := s.workspace.dropDocument uri }, [])
  | .forgetSettings uri => ({ s with workspace := s.workspace.change (.forget uri) }, [])
  | .schedule uri trigger => s.schedule uri trigger
  | .cancelLinting uri => (s.cancelLinting uri, [])
  | .noteShutdown => ({ s with isShutDown := true }, [])
  | .stopTimers => (s.stopTimers, [])
  | .cancelWork => (s.cancelWork, [])
  | .disconnect => ({ s with isConnected := false }, [])
  | .send m => (s, s.post m)

end Server
end MarkupLint
