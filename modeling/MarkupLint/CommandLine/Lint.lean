/-
  Linting files without a client: every file is opened, validated and closed again, and the
  diagnostics that a client would be shown are written out. The first failure ends it.
-/
import MarkupLint.Validation.Workspace

namespace MarkupLint
namespace Workspace

/-- Validates an open document at once: a pass that nothing comes between, up to its outcome. -/
def validate (env : Surroundings) (w : Workspace) (uri : String) :
    Except Failure (Workspace × Validation × List LogEntry) :=
  match Pass.begin w.documents uri .other with
  | .error f => .error f
  | .ok (p, _) =>
    let n := w.passes.length
    let going : PassPhase → Bool
      | .judged _ => false
      | _ => true
    let (after, out) :=
      goOn env n false going stretch { w with passes := w.passes ++ [{ pass := p }] }
    match after.passes[n]?.bind (·.pass.validation?) with
    | none => .error .canceled
    | some v =>
      .ok ({ after with passes := w.passes }, v, out.filterMap fun
        | .log e => some e
        | _ => none)

end Workspace

/-- What linting files comes to: one line for each diagnostic, and the failure that ended it. -/
structure LintReport where
  workspace : Workspace
  lines : List String := []
  failure : Option Failure := none
  log : List LogEntry := []

namespace LintReport

/-- A diagnostic of a file as a line. -/
def line (file : String) (d : Diagnostic) : String :=
  let start := d.range.start
  let code := match d.code with
    | some c => " (" ++ c ++ ")"
    | none => ""
  file ++ ":" ++ ConfigValue.integerText start.line ++ ":" ++
    ConfigValue.integerText start.character ++ ": " ++ d.message ++ code ++ "\n"

/-- Lints a text as the content of a file. -/
def ofText (env : Workspace.Surroundings) (w : Workspace) (file : String) (path text : Bytes) :
    LintReport :=
  let uri := (Uri.ofPath path).toText
  let opened := w.openDocument uri "html" 1 text
  match opened.validate env uri with
  | .error f => { workspace := opened, failure := some f }
  | .ok (after, v, log) =>
    { workspace := after.closeDocument uri
      lines := match v.failure with
        | some _ => []
        | none => (v.diagnostics.getD []).map (line file)
      failure := v.failure
      log := log }

/-- Lints a file. -/
def ofFile (env : Workspace.Surroundings) (w : Workspace) (file : String) : LintReport :=
  let path := Path.absolute env.files.cwd (Bytes.ofString file)
  match env.files.read path with
  | .error e => { workspace := w, failure := some (.file path e) }
  | .ok text => ofText env w file path text

/-- Lints files, one after the other. -/
def ofFiles (env : Workspace.Surroundings) (w : Workspace) : List String → LintReport
  | [] => { workspace := w }
  | file :: files =>
    let r := ofFile env w file
    if r.failure.isSome then r
    else
      let rest := ofFiles env r.workspace files
      { rest with lines := r.lines ++ rest.lines, log := r.log ++ rest.log }

/-- The failure that linting is reported as: the one that ended it, else that there are problems. -/
def verdict (r : LintReport) : Option Failure :=
  match r.failure with
  | some f => some f
  | none => if r.lines.isEmpty then none else some (.problems r.lines.length)

end LintReport
end MarkupLint
