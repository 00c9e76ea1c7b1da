/-
  The workspace: open documents, the session with the client, and the passes over documents, which
  go on side by side.

  `Workspace.step` takes one step of one pass or of one of the calls for settings, or does one
  change of the documents or of the session. `Workspace.advance?` chooses the next step of a pass by
  what its surroundings tell.
-/
import MarkupLint.ConfigFile
import MarkupLint.Engine
import MarkupLint.Session.Call
import MarkupLint.Validation.Pass

namespace MarkupLint

/-- A pass, and the number of its call for settings once it has made one. -/
structure ActivePass where
  pass : Pass
  call : Option Nat := none

/-- The state of a workspace. -/
structure Workspace where
  documents : Documents := []
  settings : SettingsCalls := {}
  /-- the directory of the workspace, empty when there is none -/
  root : Bytes := []
  /-- the client can be asked for settings -/
  fetches : Bool := false
  /-- all passes ever begun, by their numbers -/
  passes : List ActivePass := []

/-- The changes of a workspace from outside, and the steps of passes and of their calls. -/
inductive WorkspaceEvent where
  | opened (uri language : String) (version : Int) (text : Bytes)
  | changed (uri : String) (text : Bytes) (version : Option Int)
  /-- a document leaves the table; its settings are forgotten in a step of their own -/
  | closed (uri : String)
  | settings (e : SettingsEvent)
  | begin (uri : String) (trigger : Trigger)
  | readGlobal (pass : Nat)
  /-- the pass makes its call for settings -/
  | ask (pass : Nat) (canceled : Bool)
  /-- the pass takes the result of its call -/
  | gotSettings (pass : Nat)
  | gotConfig (pass : Nat) (result : Except Failure Config)
  | linted (pass : Nat) (result : Except Failure (Option (List Issue)))
  | checkCanceled (pass : Nat) (canceled : Bool)
  | checkCurrent (pass : Nat)
  | publish (pass : Nat)
  | finish (pass : Nat)

namespace Workspace

/-- The session with the client. -/
def session (w : Workspace) : Session := w.settings.session

/-- Takes a step of one pass. -/
def stepPass (w : Workspace) (n : Nat) (e : PassEvent) : Option (Workspace × List PassOutput) :=
  match w.passes[n]? with
  | none => none
  | some a =>
    (a.pass.step e).map fun (p, out) =>
      ({ w with passes := w.passes.modify n fun a => { a with pass := p } }, out)

/-- The pass is about to make its call for settings. -/
def mayAsk (a : ActivePass) : Bool :=
  match a.pass.phase with
  | .gathering _ none _ _ => a.call.isNone
  | _ => false

/-- One step, and what it lets out; `none` when it cannot be taken. -/
def step (w : Workspace) : WorkspaceEvent → Option (Workspace × List PassOutput)
  | .opened uri language version text =>
    some ({ w with documents := w.documents.opened uri language version text }, [])
  | .changed uri text version =>
    match w.documents.changed uri text version with
    | .ok ds => some ({ w with documents := ds }, [])
    | .error _ => none
  | .closed uri => some ({ w with documents := w.documents.closed uri }, [])
  | .settings e => (w.settings.step e).map fun s => ({ w with settings := s }, [])
  | .begin uri trigger =>
    match Pass.begin w.documents uri trigger with
    | .ok (p, out) => some ({ w with passes := w.passes ++ [{ pass := p }] }, out)
    | .error _ => none
  | .readGlobal n => w.stepPass n (.readGlobal w.session.global)
  | .ask n canceled =>
    match w.passes[n]? with
    | none => none
    | some a =>
      if mayAsk a then
        (w.settings.step (.begin a.pass.document.uri w.fetches canceled)).map fun s =>
          ({ w with
              settings := s
              passes := w.passes.modify n
                fun a => { a with call := some w.settings.calls.length } }, [])
      else none
  | .gotSettings n =>
    match (w.passes[n]?.bind (·.call)).bind w.settings.returned? with
    | some r => w.stepPass n (.gotSettings r)
    | none => none
  | .gotConfig n r => w.stepPass n (.gotConfig r)
  | .linted n r => w.stepPass n (.linted r)
  | .checkCanceled n canceled => w.stepPass n (.checkCanceled canceled)
  | .checkCurrent n => w.stepPass n (.checkCurrent w.documents)
  | .publish n => w.stepPass n .publish
  | .finish n => w.stepPass n .finish

/-! ## Changes from outside -/

/-- Changes the session. -/
def change (w : Workspace) (e : SettingsEvent) : Workspace :=
  { w with settings := (w.settings.step e).getD w.settings }

/-- Opens a document. -/
def openDocument (w : Workspace) (uri language : String) (version : Int) (text : Bytes) :
    Workspace :=
  { w with documents := w.documents.opened uri language version text }

/-- Gives a document a new text. -/
def changeDocument (w : Workspace) (uri : String) (text : Bytes) (version : Option Int) :
    Except Failure Workspace :=
  (w.documents.changed uri text version).map fun ds => { w with documents := ds }

/-- Takes a document out of the table. -/
def dropDocument (w : Workspace) (uri : String) : Workspace :=
  { w with documents := w.documents.closed uri }

/-- Closes a document and forgets its settings. -/
def closeDocument (w : Workspace) (uri : String) : Workspace :=
  (w.dropDocument uri).change (.forget uri)

/-- Takes in a new configuration of the client. -/
def configure (w : Workspace) (config : Option ClientConfig) : Workspace :=
  w.change (.reset (config.bind (·.settings)))

/-- The URI of the root of the workspace: as the client says, else its first folder. -/
def rootUri (p : InitializeParams) : String :=
  if p.rootUri = "" then
    match p.workspaceFolders with
    | some (f :: _) => f.uri
    | _ => ""
  else p.rootUri

/-- Starts the workspace up as the client says. A root that names no directory path is refused, and
    then nothing changes. -/
def startUp (w : Workspace) (p : InitializeParams) : Except Failure Workspace := do
  let uri := rootUri p
  let w ← if uri = "" then pure w else do
    let path ← (Uri.path (Bytes.ofString uri)).mapError Failure.ofUriError
    pure { w with root := Path.clean path }
  let w := w.change (.announce (.ofClient p.capabilities))
  pure (match p.options.bind (·.settings) with
    | some s => w.change (.reset (some s))
    | none => w)

/-! ## Passes in their surroundings -/

/-- What passes learn from outside: the files, how configuration files are found among them, and the
    linter. -/
structure Surroundings where
  files : FileSystem
  engine : Engine := .native
  lookup : ConfigLookup := {}

/-- What the linter is given for a pass. -/
def lintRequest (env : Surroundings) (w : Workspace) (d : Document) (config : Config)
    (canceled : Bool) : LintRequest :=
  { text := d.text, path := d.path, root := w.root, config := config, files := env.files,
    canceled := canceled }

/-- The next step of a pass, and what is logged on the way to it. -/
abbrev NextStep := Option (WorkspaceEvent × List LogEntry)

/-- A pass finds out its configuration. -/
def nextConfig (env : Surroundings) (n : Nat) (d : Document) (canceled : Bool) : NextStep :=
  let (config, log) := env.lookup.resolve env.files d.path canceled
  some (.gotConfig n config, log)

/-- The next step of a pass on the way to its settings; `none` when it waits for the client or for
    another pass. A cancelled pass does not wait for the client. -/
def nextSettings (w : Workspace) (n : Nat) (a : ActivePass) (canceled : Bool) :
    Option WorkspaceEvent :=
  match a.call with
  | none => some (.ask n canceled)
  | some c =>
    match w.settings.returned? c with
    | some _ => some (.gotSettings n)
    | none =>
      match w.settings.next? c with
      | some e => some (.settings e)
      | none =>
        if canceled && w.settings.isFetching c then
          some (.settings (.endFetch c (.error .canceled)))
        else none

/-- The next step of a pass that looks for settings and configuration: it finds out the
    configuration while it waits for the settings. -/
def nextGathering (env : Surroundings) (w : Workspace) (n : Nat) (a : ActivePass) (canceled : Bool)
    (needsSettings needsConfig : Bool) : NextStep :=
  match if needsSettings then w.nextSettings n a canceled else none with
  | some e => some (e, [])
  | none => if needsConfig then nextConfig env n a.pass.document canceled else none

/-- The next step of a pass; `none` when it has ended, or waits for the client or for the linter. -/
def next? (env : Surroundings) (w : Workspace) (n : Nat) (canceled : Bool) : NextStep :=
  match w.passes[n]? with
  | none => none
  | some a =>
    match a.pass.phase with
    | .begun => some (.readGlobal n, [])
    | .gathering _ settings config _ =>
      nextGathering env w n a canceled settings.isNone config.isNone
    | .linting _ config =>
      (env.engine (w.lintRequest env a.pass.document config canceled)).map fun reply =>
        (.linted n reply.result, reply.log)
    | .judged _ => some (.checkCanceled n canceled, [])
    | .live _ => some (.checkCurrent n, [])
    | .fresh _ => some (.publish n, [])
    | .closing _ => some (.finish n, [])
    | .ended _ => none

/-- Takes the next step of a pass. -/
def advance? (env : Surroundings) (w : Workspace) (n : Nat) (canceled : Bool) :
    Option (Workspace × List PassOutput) :=
  match w.next? env n canceled with
  | none => none
  | some (e, log) => (w.step e).map fun (w, out) => (w, log.map .log ++ out)

/-- The call for settings of a pass, when it waits for the client. -/
def fetching? (w : Workspace) (n : Nat) : Option Nat :=
  match w.passes[n]?.bind (·.call) with
  | some c => if w.settings.isFetching c then some c else none
  | none => none

/-- More steps than a pass takes between two moments at which it waits for somebody. -/
def stretch : Nat := 32

/-- Lets a pass go on while `going` holds of its phase, for at most so many steps. -/
def goOn (env : Surroundings) (n : Nat) (canceled : Bool) (going : PassPhase → Bool) :
    Nat → Workspace → Workspace × List PassOutput
  | 0, w => (w, [])
  | fuel + 1, w =>
    if ((w.passes[n]?.map fun a => going a.pass.phase).getD false) then
      match w.advance? env n canceled with
      | none => (w, [])
      | some (w, out) =>
        let (w, rest) := goOn env n canceled going fuel w
        (w, out ++ rest)
    else (w, [])

/-- The phase of a pass. -/
def phase? (w : Workspace) (n : Nat) : Option PassPhase := w.passes[n]?.map (·.pass.phase)

end Workspace
end MarkupLint
