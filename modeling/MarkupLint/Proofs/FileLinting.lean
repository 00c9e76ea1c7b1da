/-
  Linting files without a client.

  One workspace serves all files: each is opened, validated and closed in it. `validate_eq` follows
  a pass from its beginning to its outcome where the client is not asked for settings. What it comes
  to (`judge`) depends on the document, the files around and the settings for all documents, and on
  nothing that an earlier file could have left behind; the workspace is at rest again when the
  document is closed (`ofFile_eq`). So linting a list of files is linting each of them in a
  workspace of its own.
-/
import MarkupLint.CommandLine.Lint
import MarkupLint.Proofs.Table

namespace MarkupLint
namespace Workspace

variable {env : Surroundings} {w : Workspace} {d : Document} {a : ActivePass}
  {calls : List SettingsCall}

/-! ## A pass that nothing comes between -/

/-- The workspace with one pass at work in it, and these calls for settings. -/
def working (w : Workspace) (calls : List SettingsCall) (a : ActivePass) : Workspace :=
  { w with settings := ⟨w.session, calls⟩, passes := [a] }

/-- The client is not asked for settings. -/
def Unasking (w : Workspace) : Prop := (w.session.capabilities.configuration && w.fetches) = false

/-- Changing the last call leaves those before it. -/
theorem modify_snoc (c : SettingsCall) (f : SettingsCall → SettingsCall) :
    (calls ++ [c]).modify calls.length f = calls ++ [f c] := by
  induction calls with
  | nil => rfl
  | cons x xs ih => exact congrArg (x :: ·) ih

/-- First the pass reads the settings for all documents. -/
theorem advance?_begun :
    (w.working calls ⟨⟨d, .begun⟩, none⟩).advance? env 0 false =
      some (w.working calls ⟨⟨d, .gathering w.session.global none none none⟩, none⟩, []) := rfl

/-- A pass asks for the settings of its document. As the client is not asked, the call will take the
    ones for all documents. -/
theorem advance?_ask (h : w.Unasking) {global : Settings} :
    (w.working calls ⟨⟨d, .gathering global none none none⟩, none⟩).advance? env 0 false =
      some (w.working (calls ++ [⟨d.uri, false, .global⟩])
        ⟨⟨d, .gathering global none none none⟩, some calls.length⟩, []) := by
  have hphase : (if w.session.capabilities.configuration && w.fetches then CallPhase.looking
      else .global) = .global := if_neg (by rw [h]; decide)
  rw [← hphase]
  rfl

theorem phase?_snoc (s : Session) (c : SettingsCall) :
    SettingsCalls.phase? ⟨s, calls ++ [c]⟩ calls.length = some c.phase := by
  unfold SettingsCalls.phase?
  rw [List.getElem?_concat_length]
  rfl

theorem advance?_takeGlobal {global : Settings} :
    (w.working (calls ++ [⟨d.uri, false, .global⟩])
        ⟨⟨d, .gathering global none none none⟩, some calls.length⟩).advance? env 0 false =
      some (w.working (calls ++ [⟨d.uri, false, .returned (.ok w.session.global)⟩])
        ⟨⟨d, .gathering global none none none⟩, some calls.length⟩, []) := by
  have hcall : (calls ++ [(⟨d.uri, false, .global⟩ : SettingsCall)])[calls.length]? =
      some ⟨d.uri, false, .global⟩ :=
    List.getElem?_concat_length
  simp only [advance?, next?, nextGathering, nextSettings, working, List.getElem?_cons_zero,
    Option.isNone_none, SettingsCalls.returned?, SettingsCalls.next?, phase?_snoc, step,
    SettingsCalls.step, SettingsCalls.move, hcall, modify_snoc, Option.map_some, if_true]
  rfl

/-- The pass takes over what the call returned. -/
theorem advance?_gotSettings {global settings : Settings} :
    (w.working (calls ++ [⟨d.uri, false, .returned (.ok settings)⟩])
        ⟨⟨d, .gathering global none none none⟩, some calls.length⟩).advance? env 0 false =
      some (w.working (calls ++ [⟨d.uri, false, .returned (.ok settings)⟩])
        ⟨⟨d, .gathering global (some (.ok settings)) none none⟩, some calls.length⟩, []) := by
  simp only [advance?, next?, nextGathering, nextSettings, working, List.getElem?_cons_zero,
    Option.isNone_none, SettingsCalls.returned?, phase?_snoc, step, stepPass, Option.bind_some,
    if_true]
  rfl

/-- A pass looks for the configuration, and goes on to linting with the one it finds. -/
theorem advance?_gotConfig {global settings : Settings} {call : Option Nat} {config : Config}
    {log : List LogEntry} (h : env.lookup.resolve env.files d.path false = (.ok config, log)) :
    (w.working calls
        ⟨⟨d, .gathering global (some (.ok settings)) none none⟩, call⟩).advance? env 0 false =
      some (w.working calls ⟨⟨d, .linting settings config⟩, call⟩, log.map .log ++ []) := by
  simp only [advance?, next?, nextGathering, nextConfig, working, List.getElem?_cons_zero, h]
  rfl

/-- A pass without a configuration is over. -/
theorem advance?_gotConfig_error {global settings : Settings} {call : Option Nat} {f : Failure}
    {log : List LogEntry} (h : env.lookup.resolve env.files d.path false = (.error f, log)) :
    (w.working calls
        ⟨⟨d, .gathering global (some (.ok settings)) none none⟩, call⟩).advance? env 0 false =
      some (w.working calls ⟨⟨d, .judged (Pass.failed d settings f)⟩, call⟩,
        log.map .log ++ []) := by
  simp only [advance?, next?, nextGathering, nextConfig, working, List.getElem?_cons_zero, h]
  rfl

/-- What a pass comes to when the linter has answered. -/
def concluded (d : Document) (settings : Settings) :
    Except Failure (Option (List Issue)) → Validation
  | .ok issues => Pass.found d settings (issues.getD [])
  | .error f => Pass.failed d settings (.engine d.uri f)

/-- A pass is over when the linter has answered. -/
theorem advance?_linted {settings : Settings} {call : Option Nat} {config : Config}
    {reply : LintReply} (h : env.engine (w.lintRequest env d config false) = some reply) :
    (w.working calls ⟨⟨d, .linting settings config⟩, call⟩).advance? env 0 false =
      some (w.working calls ⟨⟨d, .judged (concluded d settings reply.result)⟩, call⟩,
        reply.log.map .log ++ []) := by
  have hrequest : (w.working calls ⟨⟨d, .linting settings config⟩, call⟩).lintRequest env d
      config false = w.lintRequest env d config false := rfl
  have hpass : (w.working calls ⟨⟨d, .linting settings config⟩, call⟩).passes[0]? =
      some ⟨⟨d, .linting settings config⟩, call⟩ := rfl
  simp only [advance?, next?, hpass, hrequest, h]
  rfl

/-! ## From the beginning to the outcome -/

/-- The pass has no outcome yet. -/
def unjudged : PassPhase → Bool
  | .judged _ => false
  | _ => true

/-- The first pass gets from one workspace to another in so many steps, none of which begins with an
    outcome. -/
inductive Reaches (env : Surroundings) : Nat → Workspace → Workspace → List PassOutput → Prop where
  | here (w : Workspace) : Reaches env 0 w w []
  | step {k : Nat} {w w' w'' : Workspace} {out rest : List PassOutput}
      (hgoing : ((w.passes[0]?.map fun a => unjudged a.pass.phase).getD false) = true)
      (hstep : w.advance? env 0 false = some (w', out)) (h : Reaches env k w' w'' rest) :
      Reaches env (k + 1) w w'' (out ++ rest)

/-- Going on with fuel to spare comes to the outcome. The induction is on the steps, each of which
    uses up one unit of fuel. -/
theorem Reaches.goOn_eq {k fuel : Nat} {w' : Workspace} {out : List PassOutput}
    (h : Reaches env k w w' out)
    (hover : ((w'.passes[0]?.map fun a => unjudged a.pass.phase).getD false) = false)
    (hk : k < fuel) :
    goOn env 0 false unjudged fuel w = (w', out) := by
  obtain ⟨fuel, rfl⟩ := Nat.exists_eq_add_of_lt hk
  induction h with
  | here w => rw [Nat.zero_add, goOn, if_neg (by rw [hover]; decide)]
  | step hgoing hstep h ih =>
    rename_i k w w' w'' out rest
    rw [show k + 1 + fuel + 1 = (k + fuel + 1) + 1 by omega, goOn, if_pos hgoing, hstep]
    simp only [ih hover (by omega)]

/-- What a document comes to under the settings for all documents, and what is logged on the way. -/
def judge (env : Surroundings) (w : Workspace) (d : Document) :
    Option (Validation × List LogEntry) :=
  match env.lookup.resolve env.files d.path false with
  | (.error f, log) => some (Pass.failed d w.session.global f, log)
  | (.ok config, log) =>
    (env.engine (w.lintRequest env d config false)).map fun reply =>
      (concluded d w.session.global reply.result, log ++ reply.log)

/-- The calls after the one of a pass that takes the settings for all documents. -/
def callsAfter (w : Workspace) (d : Document) : List SettingsCall :=
  w.settings.calls ++ [⟨d.uri, false, .returned (.ok w.session.global)⟩]

/-- Four steps gather the settings. -/
theorem reaches_gathered (h : w.Unasking) {k : Nat} {w' : Workspace} {out : List PassOutput}
    (hrest : Reaches env k (w.working (w.callsAfter d) ⟨⟨d, .gathering w.session.global
      (some (.ok w.session.global)) none none⟩, some w.settings.calls.length⟩) w' out) :
    Reaches env (k + 4) (w.working w.settings.calls ⟨⟨d, .begun⟩, none⟩) w' out :=
  .step rfl advance?_begun (.step rfl (advance?_ask h) (.step rfl advance?_takeGlobal
    (.step rfl advance?_gotSettings hrest)))

/-- At most two more steps lead to the outcome, and what is logged comes from the configuration and
    from the linter. -/
theorem reaches_judged (h : w.Unasking) {v : Validation} {log : List LogEntry}
    (hjudge : judge env w d = some (v, log)) :
    ∃ k ≤ 6, Reaches env k (w.working w.settings.calls ⟨⟨d, .begun⟩, none⟩)
      (w.working (w.callsAfter d) ⟨⟨d, .judged v⟩, some w.settings.calls.length⟩)
      (log.map .log) := by
  unfold judge at hjudge
  -- without a configuration the linter is not asked
  split at hjudge
  · rename_i f flog hresolve
    obtain ⟨rfl, rfl⟩ := Prod.mk.inj (Option.some.inj hjudge)
    refine ⟨5, by decide, ?_⟩
    have hall := reaches_gathered h (.step rfl (advance?_gotConfig_error hresolve) (.here _))
    rwa [List.append_nil, List.append_nil] at hall
  · rename_i config clog hresolve
    obtain ⟨reply, hreply, hv⟩ := Option.map_eq_some_iff.mp hjudge
    obtain ⟨rfl, rfl⟩ := Prod.mk.inj hv
    refine ⟨6, by decide, ?_⟩
    have hall := reaches_gathered h
      (.step rfl (advance?_gotConfig hresolve) (.step rfl (advance?_linted hreply) (.here _)))
    rwa [List.append_nil, List.append_nil, List.append_nil, ← List.map_append] at hall

/-- What is logged, of all that a pass lets out. -/
def logged? : PassOutput → Option LogEntry
  | .log e => some e
  | _ => none

/-- The result of a validation, from what its pass has come to. -/
def validated (w : Workspace) (n : Nat) (run : Workspace × List PassOutput) :
    Except Failure (Workspace × Validation × List LogEntry) :=
  match run.1.passes[n]?.bind (·.pass.validation?) with
  | none => .error .canceled
  | some v => .ok ({ run.1 with passes := w.passes }, v, run.2.filterMap logged?)

/-- An open document gets a pass, and the validation is what the pass comes to. -/
theorem validate_open {uri : String} (hopen : w.documents.get? uri = some d) :
    w.validate env uri = w.validated w.passes.length
      (goOn env w.passes.length false unjudged stretch
        { w with passes := w.passes ++ [{ pass := ⟨d, .begun⟩ }] }) := by
  unfold validate Pass.begin
  rw [hopen]
  rfl

/-- Validating an open document where the client is not asked for settings. -/
theorem validate_eq (h : w.Unasking) (hpasses : w.passes = []) {uri : String}
    (hopen : w.documents.get? uri = some d) {v : Validation} {log : List LogEntry}
    (hjudge : judge env w d = some (v, log)) :
    w.validate env uri = .ok ({ w with settings := ⟨w.session, w.callsAfter d⟩ }, v, log) := by
  obtain ⟨k, hk, hreaches⟩ := reaches_judged h hjudge
  have hrun := hreaches.goOn_eq rfl (show k < stretch by unfold stretch; omega)
  have hlog : (log.map PassOutput.log).filterMap logged? = log := by
    rw [List.filterMap_map]
    exact List.filterMap_some
  rw [validate_open hopen, hpasses]
  calc w.validated 0
        (goOn env 0 false unjudged stretch (w.working w.settings.calls ⟨⟨d, .begun⟩, none⟩))
    _ = .ok ({ w with settings := ⟨w.session, w.callsAfter d⟩, passes := w.passes }, v,
        (log.map PassOutput.log).filterMap logged?) := by rw [hrun]; rfl
    _ = .ok ({ w with settings := ⟨w.session, w.callsAfter d⟩, passes := [] }, v, log) := by
      rw [hlog, hpasses]

/-! ## At rest -/

/-- Nothing is left of any document: none is open, the session is as it was in the beginning, and no
    pass is at work. There is no root, and no client to ask for settings. -/
structure AtRest (w : Workspace) : Prop where
  documents : w.documents = []
  session : w.session = {}
  root : w.root = []
  fetches : w.fetches = false
  passes : w.passes = []

theorem atRest_new : AtRest {} := ⟨rfl, rfl, rfl, rfl, rfl⟩

theorem AtRest.unasking (h : w.AtRest) : w.Unasking := by
  unfold Unasking
  rw [h.fetches, Bool.and_false]

/-- The linter gives an answer to every request. -/
def Surroundings.Answers (env : Surroundings) : Prop := ∀ r, (env.engine r).isSome = true

/-- What a document comes to in a new workspace. -/
theorem exists_judge (henv : env.Answers) (d : Document) :
    ∃ v log, judge env {} d = some (v, log) := by
  unfold judge
  split
  · exact ⟨_, _, rfl⟩
  · rename_i config log hresolve
    obtain ⟨reply, hreply⟩ := Option.isSome_iff_exists.mp (henv (lintRequest env {} d config false))
    rw [hreply]
    exact ⟨_, _, rfl⟩

/-- What a document comes to is told by the session and the root alone. -/
theorem judge_congr {w' : Workspace} (hsession : w.session = w'.session)
    (hroot : w.root = w'.root) (d : Document) :
    judge env w d = judge env w' d := by
  unfold judge lintRequest
  rw [hsession, hroot]

/-- The document that a text is opened as. -/
def documentOf (uri : String) (text : Bytes) : Document :=
  { uri := uri
    version := 1
    language := "html"
    path := ((filePath (Bytes.ofString uri)).toOption).getD []
    text := text }

/-- The document that was opened is in the table. -/
theorem get?_openDocument (w : Workspace) (uri : String) (text : Bytes) :
    (w.openDocument uri "html" 1 text).documents.get? uri = some (documentOf uri text) :=
  Table.get?_put_self w.documents uri _

/-- Closing the only open document brings the workspace to rest. -/
theorem AtRest.close (h : w.AtRest) (uri : String) (text : Bytes) (calls : List SettingsCall) :
    AtRest ({ w.openDocument uri "html" 1 text with
      settings := ⟨w.session, calls⟩ }.closeDocument uri) := by
  refine ⟨?_, ?_, h.root, h.fetches, h.passes⟩
  · show (w.documents.put uri (documentOf uri text)).erase uri = []
    rw [h.documents]
    simp [Table.put, Table.erase]
  · show w.session.forget uri = {}
    rw [h.session]
    rfl

end Workspace

namespace LintReport

open Workspace

variable {env : Surroundings} {w : Workspace}

/-! ## Reports -/

/-- The report on a file that a validation gives. -/
def ofValidation (w : Workspace) (file : String) (v : Validation) (log : List LogEntry) :
    LintReport :=
  { workspace := w
    lines := if v.failure.isSome then [] else (v.diagnostics.getD []).map (line file)
    failure := v.failure
    log := log }

/-- A text that is linted in a workspace at rest leaves it at rest, and is reported as what the text
    comes to in a new workspace. -/
theorem ofText_of_judge (h : w.AtRest) (file : String) {path text : Bytes} {v : Validation}
    {log : List LogEntry}
    (hjudge : judge env {} (documentOf (Uri.ofPath path).toText text) = some (v, log)) :
    ∃ w' : Workspace, w'.AtRest ∧ ofText env w file path text = ofValidation w' file v log := by
  have hopened : (w.openDocument (Uri.ofPath path).toText "html" 1 text).Unasking := h.unasking
  have hsame : judge env (w.openDocument (Uri.ofPath path).toText "html" 1 text)
      (documentOf (Uri.ofPath path).toText text) = some (v, log) :=
    (judge_congr h.session h.root _).trans hjudge
  have hvalid := validate_eq hopened h.passes (get?_openDocument w _ text) hsame
  refine ⟨_,
    h.close (Uri.ofPath path).toText text (w.callsAfter (documentOf (Uri.ofPath path).toText text)),
    ?_⟩
  unfold ofText
  simp only [hvalid]
  unfold ofValidation
  cases v.failure with
  | none => rfl
  | some f => rfl

theorem ofFile_of_read {file : String} {text : Bytes}
    (h : env.files.read (Path.absolute env.files.cwd (Bytes.ofString file)) = .ok text)
    (w : Workspace) :
    ofFile env w file =
      ofText env w file (Path.absolute env.files.cwd (Bytes.ofString file)) text := by
  simp only [ofFile, h]

theorem ofFile_of_read_error {file : String} {e : FileError}
    (h : env.files.read (Path.absolute env.files.cwd (Bytes.ofString file)) = .error e)
    (w : Workspace) :
    ofFile env w file =
      { workspace := w,
        failure := some (.file (Path.absolute env.files.cwd (Bytes.ofString file)) e) } := by
  simp only [ofFile, h]

/-- A file that is linted in a workspace at rest leaves it at rest, and is reported as in a new
    one. -/
theorem ofFile_eq (henv : env.Answers) (h : w.AtRest) (file : String) :
    ∃ w' : Workspace, w'.AtRest ∧
      ofFile env w file = { ofFile env {} file with workspace := w' } := by
  cases hread : env.files.read (Path.absolute env.files.cwd (Bytes.ofString file)) with
  | error e =>
    rw [ofFile_of_read_error hread, ofFile_of_read_error hread]
    exact ⟨w, h, rfl⟩
  | ok text =>
    obtain ⟨v, log, hjudge⟩ := exists_judge henv
      (documentOf (Uri.ofPath (Path.absolute env.files.cwd (Bytes.ofString file))).toText text)
    obtain ⟨w', hw', heq⟩ := ofText_of_judge h file hjudge
    obtain ⟨w₀, -, hnew⟩ := ofText_of_judge atRest_new file hjudge
    rw [ofFile_of_read hread, ofFile_of_read hread, heq, hnew]
    exact ⟨w', hw', rfl⟩

theorem ofFiles_eq (henv : env.Answers) (h : w.AtRest) (files : List String) :
    ∃ w' : Workspace, w'.AtRest ∧
      ofFiles env w files = { ofFiles env {} files with workspace := w' } := by
  induction files generalizing w with
  | nil => exact ⟨w, h, rfl⟩
  | cons file files ih =>
    obtain ⟨w', hw', heq⟩ := ofFile_eq henv h file
    obtain ⟨w₀, hw₀, hnew⟩ := ofFile_eq henv atRest_new file
    have hrest : (ofFile env {} file).workspace.AtRest := by
      rw [hnew]
      exact hw₀
    unfold ofFiles
    rw [heq]
    -- the first failure ends the list, in either workspace
    by_cases hfailure : (ofFile env {} file).failure.isSome = true
    · exact ⟨w', hw', by simp only [hfailure, if_true]⟩
    · obtain ⟨w₁, hw₁, hfirst⟩ := ih hw'
      obtain ⟨w₂, -, hsecond⟩ := ih hrest
      refine ⟨w₁, hw₁, ?_⟩
      rw [Bool.not_eq_true] at hfailure
      simp only [hfailure, hfirst, hsecond]
      rfl

/-- A list of files leaves the workspace at rest. -/
theorem atRest_ofFiles (henv : env.Answers) (h : w.AtRest) (files : List String) :
    (ofFiles env w files).workspace.AtRest := by
  obtain ⟨w', hw', heq⟩ := ofFiles_eq henv h files
  rw [heq]
  exact hw'

/-- Linting a further list of files goes on where the first one ended. -/
theorem ofFiles_append (fs gs : List String) (hfs : (ofFiles env w fs).failure = none) :
    ofFiles env w (fs ++ gs) =
      { ofFiles env (ofFiles env w fs).workspace gs with
        lines := (ofFiles env w fs).lines ++ (ofFiles env (ofFiles env w fs).workspace gs).lines
        log := (ofFiles env w fs).log ++ (ofFiles env (ofFiles env w fs).workspace gs).log } := by
  induction fs generalizing w with
  | nil => rfl
  | cons file fs ih =>
    by_cases hfailure : (ofFile env w file).failure.isSome = true
    · -- then the first list would have failed
      have hstop : ofFiles env w (file :: fs) = ofFile env w file := if_pos hfailure
      rw [hstop] at hfs
      rw [hfs] at hfailure
      exact absurd hfailure (by decide)
    · have hgo : ∀ hs, ofFiles env w (file :: hs) =
          { ofFiles env (ofFile env w file).workspace hs with
            lines :=
              (ofFile env w file).lines ++ (ofFiles env (ofFile env w file).workspace hs).lines
            log :=
              (ofFile env w file).log ++ (ofFiles env (ofFile env w file).workspace hs).log } :=
        fun hs => if_neg hfailure
      rw [hgo] at hfs ⊢
      rw [List.cons_append, hgo, ih hfs]
      simp only [List.append_assoc]

/-- The report of the linter that is built in on files, in a workspace of their own. -/
def builtIn (files : FileSystem) (lookup : ConfigLookup) (fs : List String) : LintReport :=
  ofFiles { files := files, lookup := lookup } {} fs

/-- **Linting several files is linting each one.** If nothing fails on a first list of files, then
    linting a second one in the same workspace prints what each of the lists alone prints, fails as
    the second one alone fails, and else counts the problems of both: they are a failure just when
    there are any. After every list, whether it failed or not, no document is open, and the session
    is as it was in the beginning. -/
theorem lint_files_append (files : FileSystem) (lookup : ConfigLookup) (fs gs : List String)
    (hfs : (builtIn files lookup fs).failure = none) :
    (builtIn files lookup (fs ++ gs)).lines =
      (builtIn files lookup fs).lines ++ (builtIn files lookup gs).lines ∧
      (builtIn files lookup (fs ++ gs)).failure = (builtIn files lookup gs).failure ∧
      (∀ f, (builtIn files lookup gs).failure = some f →
        (builtIn files lookup (fs ++ gs)).verdict = some f) ∧
      ((builtIn files lookup gs).failure = none → (builtIn files lookup (fs ++ gs)).verdict =
        if (builtIn files lookup fs).lines.length + (builtIn files lookup gs).lines.length = 0
        then none
        else some (.problems
          ((builtIn files lookup fs).lines.length + (builtIn files lookup gs).lines.length))) ∧
      ∀ hs, (builtIn files lookup hs).workspace.documents = [] ∧
        (builtIn files lookup hs).workspace.session = {} := by
  have henv : Surroundings.Answers { files := files, lookup := lookup } := fun _ => rfl
  obtain ⟨w', -, hsecond⟩ := ofFiles_eq henv (atRest_ofFiles henv atRest_new fs) gs
  have hwhole : builtIn files lookup (fs ++ gs) =
      { workspace := w'
        lines := (builtIn files lookup fs).lines ++ (builtIn files lookup gs).lines
        failure := (builtIn files lookup gs).failure
        log := (builtIn files lookup fs).log ++ (builtIn files lookup gs).log } := by
    unfold builtIn at hfs ⊢
    rw [ofFiles_append fs gs hfs, hsecond]
  rw [hwhole]
  refine ⟨rfl, rfl, fun f hf => ?_, fun hnone => ?_, fun hs => ?_⟩
  · simp only [verdict, hf]
  · simp only [verdict, hnone, List.isEmpty_iff, ← List.length_eq_zero_iff, List.length_append]
  · have hrest := atRest_ofFiles henv atRest_new hs
    exact ⟨hrest.documents, hrest.session⟩

/-- A banned attribute in one file, and nothing to complain of in the other. -/
def twoFiles : FileSystem :=
  ⟨.dir [(Bytes.ofString "a.html", .file (Bytes.ofString "<p style='x'>")),
    (Bytes.ofString "b.html", .file (Bytes.ofString "<p>"))], [Ascii.slash]⟩

/-- A file with a problem, then one without and one that is not there. -/
theorem lint_files_append_missing :
    (builtIn twoFiles {} ["a.html"]).failure = none ∧
      (builtIn twoFiles {} (["a.html"] ++ ["b.html", "c.html"])).lines =
        ["a.html:1:3: The attribute \"style\" is banned (attr-bans)\n"] ∧
      (builtIn twoFiles {} (["a.html"] ++ ["b.html", "c.html"])).verdict =
        some (.file (Bytes.ofString "/c.html") .missing) ∧
      (builtIn twoFiles {} (["a.html"] ++ ["b.html", "c.html"])).workspace.documents = [] := by
  have hfirst : (builtIn twoFiles {} ["a.html"]).failure = none := by decide +kernel
  obtain ⟨hlines, -, hfailed, -, hrest⟩ :=
    lint_files_append twoFiles {} ["a.html"] ["b.html", "c.html"] hfirst
  refine ⟨hfirst, ?_, hfailed _ (by decide +kernel), (hrest _).1⟩
  rw [hlines]
  decide +kernel

end LintReport
end MarkupLint
