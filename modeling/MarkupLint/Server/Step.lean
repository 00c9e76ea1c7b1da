/-
  The server at work, one step at a time.

  `Server.step` takes a message of the client, one task of those that it leaves to do, the firing of
  a timer, one step of one run, or something that the watcher sees. Messages are handled one after
  the other. Timers and runs go on side by side with them, so the sequences of steps are all the
  ways in which they can interleave.
-/
import MarkupLint.Server.Handle

namespace MarkupLint

/-- The steps of the server. -/
inductive ServerEvent where
  | receive (message : ClientMessage)
  /-- the next task of the message that came in last -/
  | work
  /-- the client is gone, or what it sends cannot be understood -/
  | hangUp
  | fire (timer : Nat)
  /-- a run takes its document and begins a pass over it -/
  | begin (run : Nat)
  /-- the pass of a run takes a step -/
  | pass (run : Nat) (e : WorkspaceEvent)
  /-- a run sees that its pass has ended -/
  | passed (run : Nat)
  | report (run : Nat)
  | leave (run : Nat)
  | watch (e : WatchEvent)

/-- What the client sends comes in; what is no message ends the connection. -/
def ServerEvent.ofJson (j : Json) : ServerEvent :=
  match ClientMessage.ofJson? j with
  | some m => .receive m
  | none => .hangUp

namespace Server

/-! ## Messages -/

/-- What a client's answer says about the settings of a document: those in the first place of a
    list, and the defaults when the list is empty. -/
def settingsOf (answer : Except Failure Json) : SettingsResult :=
  match answer with
  | .error f => .error f
  | .ok j =>
    match (Codec.list Settings.codec).readOne j with
    | .error e => .error (.json e)
    | .ok ss => .ok ((ss.getD []).head?.getD .default)

/-- Takes in an answer of the client. An answer that nobody waits for is passed over. -/
def takeReply (s : Server) (id : RequestId) (answer : Except Failure Json) : Server :=
  match id with
  | .text _ => s
  | .number n =>
    match s.requests.find? (·.1 == n) with
    | none => s
    | some (_, c) =>
      { s with
        requests := s.requests.filter (·.1 != n)
        workspace := s.workspace.change (.endFetch c (settingsOf answer)) }

/-- Takes in a message of the client. The answer to a request comes after all that is left to do. -/
def receive (fs : FileSystem) (s : Server) : ClientMessage → Reaction
  | .request id method params =>
    let h := s.handle fs method params true
    let answer := match h.answer with
      | .ok v => .result id v
      | .error f => .ofFailure id f
    ({ h.server with tasks := h.tasks ++ [.send answer] }, h.output)
  | .notification method params =>
    let h := s.handle fs method params false
    let refusal := match h.answer with
      | .ok _ => []
      | .error f => [.refused f]
    ({ h.server with tasks := h.tasks }, h.output ++ refusal)
  | .reply id answer => (s.takeReply id answer, [])

/-! ## Runs -/

/-- What the client sees of a pass. -/
def display (s : Server) (pass : Nat) : PassOutput → List ServerOutput
  | .progress r =>
    s.post (.notification "$/progress"
      (.obj [("token", .str (ConfigValue.integerText pass)), ("value", r.toJson)]))
  | .publish p =>
    s.post (.notification "textDocument/publishDiagnostics" (Publication.codec.write p))
  | .log e => [.log e]

/-- The request for the settings of a document. -/
def settingsParams (uri : String) : Json :=
  .obj [("items", .arr [.obj ((if uri = "" then [] else [("scopeUri", .str uri)]) ++
    [("section", .str "htmllint")])])]

/-- Asks the client for the settings of a document, on behalf of a call. -/
def request (s : Server) (uri : String) (call : Nat) : Reaction :=
  ({ s with
      requests := if s.isConnected then s.requests ++ [(s.requestCount, call)] else s.requests
      requestCount := s.requestCount + 1 },
    s.post (.request s.requestCount "workspace/configuration" (settingsParams uri)))

/-- A request cannot be answered any more. -/
def connectionLost (during : String) : Failure :=
  .connection during (.plain "jsonrpc2: connection is closed")

/-- How a request for settings can end without an answer. -/
def mayGiveUp (s : Server) (r : LintRun) (result : SettingsResult) : Bool :=
  (s.isCanceled r && result = .error .canceled) ||
  (!s.isConnected && result = .error (connectionLost "workspace/configuration"))

/-- The step is one of this run with its pass: the pass and the call are its own, and what the step
    says about cancellation is true. -/
def allows (s : Server) (r : LintRun) (p : Nat) : WorkspaceEvent → Bool
  | .readGlobal n | .gotSettings n | .gotConfig n _ | .linted n _ | .checkCurrent n | .publish n
  | .finish n => n = p
  | .ask n canceled | .checkCanceled n canceled => n = p && canceled = s.isCanceled r
  | .settings (.endFetch c result) => s.call? r = some c && s.mayGiveUp r result
  | .settings (.takeGlobal c) | .settings (.lookUp c) | .settings (.startFetch c)
  | .settings (.discard c) | .settings (.complete c) | .settings (.wake c)
  | .settings (.giveUp c) => s.call? r = some c
  | _ => false

/-- The phase of a run. -/
def runPhase? (s : Server) (n : Nat) : Option RunPhase := s.runs[n]?.map (·.phase)

/-- The phase of a run changes. -/
def moveRun (s : Server) (n : Nat) (phase : RunPhase) : Server :=
  { s with runs := s.runs.modify n fun r => { r with phase := phase } }

/-- Begins the pass of a run. A document that is not open is a failure. -/
def beginRun (s : Server) (n : Nat) (r : LintRun) : Reaction :=
  match s.workspace.step (.begin r.uri r.trigger) with
  | none => (s.moveRun n (.reporting (some (.notOpen r.uri))), [])
  | some (w, out) =>
    let p := s.workspace.passes.length
    let s := { s with workspace := w }
    (s.moveRun n (.passing p), out.flatMap (s.display p))

/-- Takes a step of the pass of a run. A step that starts to ask the client sends the request. -/
def stepRun (s : Server) (r : LintRun) (p : Nat) (e : WorkspaceEvent) : Option Reaction :=
  if s.allows r p e then
    (s.workspace.step e).map fun (w, out) =>
      let s := { s with workspace := w }
      let reaction : Reaction := (s, out.flatMap (s.display p))
      match e with
      | .settings (.startFetch c) => reaction.andThen (·.request r.uri c)
      | _ => reaction
  else none

/-- Tells of a failure, in the log and to the client. -/
def reportFailure (s : Server) (failure : Option Failure) : List ServerOutput :=
  match failure with
  | none => []
  | some f => .log ⟨.error, f.message⟩ :: s.logMessage 1 f.message

/-! ## The watcher -/

/-- Something happens among the files. Changes of configuration files that the watcher hands on have
    all documents linted. -/
def watch (fs : FileSystem) (s : Server) (w : Watcher) (e : WatchEvent) : Reaction :=
  let (w, batch, log) := w.step fs e
  let s := { s with watcher := some w }
  match batch with
  | none => (s, log.map .log)
  | some paths =>
    let text := "configuration changed: [" ++ " ".intercalate (paths.map Bytes.toText) ++ "]"
    Reaction.andThen (s, log.map .log ++ [.log ⟨.info, text⟩]) (·.scheduleAll .configChanged)

/-! ## Steps -/

/-- One step; `none` when it cannot be taken. Without a client no messages come in, nor do they
    before the last one is done with, and a watcher rests when all work is cancelled. -/
def step (fs : FileSystem) (s : Server) : ServerEvent → Option Reaction
  | .receive m => if s.isConnected && s.tasks.isEmpty then some (s.receive fs m) else none
  | .work =>
    match s.tasks with
    | t :: ts => some ({ s with tasks := ts }.perform t)
    | [] => none
  | .hangUp => some ({ s with isConnected := false }, [])
  | .fire t => (s.fire t).map fun s => (s, [])
  | .begin n =>
    match s.runs[n]? with
    | some r => if r.phase = .ready then some (s.beginRun n r) else none
    | none => none
  | .pass n e =>
    match s.runs[n]? with
    | some r =>
      match r.phase with
      | .passing p => s.stepRun r p e
      | _ => none
    | none => none
  | .passed n =>
    match s.runPhase? n with
    | some (.passing p) =>
      match s.workspace.phase? p with
      | some (.ended failure) => some (s.moveRun n (.reporting failure), [])
      | _ => none
    | _ => none
  | .report n =>
    match s.runPhase? n with
    | some (.reporting failure) => some (s.moveRun n .leaving, s.reportFailure failure)
    | _ => none
  | .leave n =>
    match s.runs[n]? with
    | some r => if r.phase = .leaving then some (s.leave n r.uri, []) else none
    | none => none
  | .watch e =>
    match s.watcher with
    | some w => if s.isClosed then none else some (s.watch fs w e)
    | none => none

/-- Does all that is left to do about a message. -/
def workOff (fs : FileSystem) (s : Server) : Reaction :=
  s.tasks.foldl (fun r _ => r.andThen fun s => (s.step fs .work).getD (s, [])) (s, [])

/-- Takes in what the client sends, and does what it asks for. -/
def deliver (fs : FileSystem) (s : Server) (j : Json) : Reaction :=
  Reaction.andThen ((s.step fs (.ofJson j)).getD (s, [])) (workOff fs)

/-- Takes steps in turn. -/
def run (fs : FileSystem) (s : Server) : List ServerEvent → Option Reaction
  | [] => some (s, [])
  | e :: es =>
    match s.step fs e with
    | none => none
    | some (s, out) => (run fs s es).map fun (s, rest) => (s, out ++ rest)

end Server
end MarkupLint
