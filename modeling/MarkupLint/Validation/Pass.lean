/-
  A validation pass: from one version of a document to the diagnostics that a client is shown.

  A pass takes the document as it is at its start, finds out the settings and the configuration of
  the document side by side, hands the text to the linter, and makes diagnostics of the issues.
  Before it shows them it checks, one after the other, that it was not cancelled and that the
  document still is at the version it started from; if not, it drops them. A progress report opens
  and closes the pass.

  `Pass.step` takes one step, with what the step learns from outside as its input.
-/
import MarkupLint.Diagnosis
import MarkupLint.Documents
import MarkupLint.Log
import MarkupLint.Protocol.Progress
import MarkupLint.Rule.Config
import MarkupLint.Session.Basic
import MarkupLint.Trigger

namespace MarkupLint

/-! ## Outcomes -/

/-- The outcome of a pass: the diagnostics of a version of a document, or why there are none, and
    the settings that were in force. -/
structure Validation where
  uri : String
  version : Int
  diagnostics : Option (List Diagnostic)
  settings : Settings
  failure : Option Failure
  deriving DecidableEq, Repr

/-- The diagnostic that shows a failure, on the first line of the document. A configuration file
    that cannot be used is named. -/
def Failure.diagnostic (f : Failure) : Diagnostic :=
  let (code, text) :=
    match f.badConfig? with
    | some (path, cause) =>
      ("config-error",
        "Invalid " ++ (Path.base path).toText ++ " (" ++ path.toText ++ "): " ++ cause.message)
    | none => ("lint-error", f.message)
  { range := ⟨⟨0, 0⟩, ⟨0, 1⟩⟩
    severity := 1
    code := some code
    source := some diagnosticSource
    message := text }

namespace Validation

/-- What is shown to the client: diagnostics, or a failure if the settings want that. -/
def publication? (v : Validation) : Option Publication :=
  match v.failure with
  | none => some ⟨v.uri, some (v.diagnostics.getD []), v.version⟩
  | some f =>
    if v.settings.reportsErrors then some ⟨v.uri, some [f.diagnostic], v.version⟩ else none

end Validation

/-! ## Passes -/

/-- Where a pass stands. -/
inductive PassPhase where
  /-- about to read the settings for all documents -/
  | begun
  /-- finds out the settings and the configuration of the document, in any order; `failure` is the
      first failure of the two -/
  | gathering (global : Settings) (settings : Option SettingsResult)
      (config : Option (Except Failure Config)) (failure : Option Failure)
  /-- the linter is at work -/
  | linting (settings : Settings) (config : Config)
  /-- about to check whether it was cancelled -/
  | judged (v : Validation)
  /-- about to check whether the document is still at its version -/
  | live (v : Validation)
  /-- about to show its outcome -/
  | fresh (v : Validation)
  /-- about to report its end -/
  | closing (failure : Option Failure)
  | ended (failure : Option Failure)

/-- A pass over a document. -/
structure Pass where
  document : Document
  phase : PassPhase

/-- The steps of a pass, with what they learn from outside. -/
inductive PassEvent where
  | readGlobal (settings : Settings)
  | gotSettings (result : SettingsResult)
  | gotConfig (result : Except Failure Config)
  | linted (result : Except Failure (Option (List Issue)))
  | checkCanceled (canceled : Bool)
  | checkCurrent (documents : Documents)
  | publish
  | finish

/-- What a pass lets out. -/
inductive PassOutput where
  | progress (report : Progress)
  | publish (publication : Publication)
  | log (entry : LogEntry)
  deriving DecidableEq, Repr

namespace Pass

/-- The document and its version in words. -/
def naming (d : Document) : String := d.uri ++ " version " ++ ConfigValue.integerText d.version

/-- Begins a pass over a document, if it is open. -/
def begin (ds : Documents) (uri : String) (trigger : Trigger) :
    Except Failure (Pass × List PassOutput) :=
  match ds.get? uri with
  | none => .error (.notOpen uri)
  | some d =>
    .ok (⟨d, .begun⟩,
      [.log ⟨.debug, "validating " ++ naming d ++ " on " ++ trigger.name⟩,
        .progress (.begin "Linting document" none none)])

/-- The outcome of a pass that fails. -/
def failed (d : Document) (settings : Settings) (f : Failure) : Validation :=
  ⟨d.uri, d.version, none, settings, some f⟩

/-- The outcome of a pass that finds issues. -/
def found (d : Document) (settings : Settings) (issues : List Issue) : Validation :=
  ⟨d.uri, d.version, some (settings.limit (diagnoseAll settings issues)), settings, none⟩

/-- How a pass goes on once it may know both settings and configuration. Without the settings of the
    document, those for all documents are in force. -/
def gathered (d : Document) (global : Settings) (settings : Option SettingsResult)
    (config : Option (Except Failure Config)) (failure : Option Failure) : PassPhase :=
  match settings, config with
  | some (.ok s), some (.ok c) => .linting s c
  | some s, some _ =>
    .judged (failed d (s.toOption.getD global) (failure.getD .canceled))
  | _, _ => .gathering global settings config failure

/-- The first failure of two. -/
def firstFailure (old : Option Failure) (r : Except Failure α) : Option Failure :=
  match old, r with
  | none, .error f => some f
  | _, _ => old

/-- One step; `none` when it cannot be taken. -/
def step (p : Pass) : PassEvent → Option (Pass × List PassOutput)
  | .readGlobal global =>
    match p.phase with
    | .begun => some ({ p with phase := .gathering global none none none }, [])
    | _ => none
  | .gotSettings r =>
    match p.phase with
    | .gathering global none config failure =>
      let wrapped := r.mapError (.remark ("cannot get settings for " ++ p.document.uri))
      let next := gathered p.document global (some r) config (firstFailure failure wrapped)
      some ({ p with phase := next }, [])
    | _ => none
  | .gotConfig r =>
    match p.phase with
    | .gathering global settings none failure =>
      let next := gathered p.document global settings (some r) (firstFailure failure r)
      some ({ p with phase := next }, [])
    | _ => none
  | .linted r =>
    match p.phase with
    | .linting settings _ =>
      let v := match r with
        | .ok issues => found p.document settings (issues.getD [])
        | .error f => failed p.document settings (.engine p.document.uri f)
      some ({ p with phase := .judged v }, [])
    | _ => none
  | .checkCanceled canceled =>
    match p.phase with
    | .judged v =>
      if canceled then
        some ({ p with phase := .closing none },
          [.log ⟨.debug, "validation of " ++ naming p.document ++ " cancelled"⟩])
      else some ({ p with phase := .live v }, [])
    | _ => none
  | .checkCurrent ds =>
    match p.phase with
    | .live v =>
      if ds.isCurrent v.uri v.version then some ({ p with phase := .fresh v }, [])
      else
        some ({ p with phase := .closing none },
          [.log ⟨.debug, "dropping stale diagnostics for " ++ naming p.document⟩])
    | _ => none
  | .publish =>
    match p.phase with
    | .fresh v =>
      some ({ p with phase := .closing v.failure }, v.publication?.toList.map .publish)
    | _ => none
  | .finish =>
    match p.phase with
    | .closing failure => some ({ p with phase := .ended failure }, [.progress (.done none)])
    | _ => none

/-- The outcome of a pass that has one and has not checked it yet. -/
def validation? (p : Pass) : Option Validation :=
  match p.phase with
  | .judged v => some v
  | _ => none

end Pass
end MarkupLint
