/-
  How a pass comes out: what a client is told of it, and which failure it ends with.

  Everything that a pass can learn on its way is gathered in `Findings`, and `Findings.publication?`
  and `Findings.result` say what should come of it. The steps of a pass that has ended are those of
  some findings, in their order (`Pass.events_of_ended`), and findings lead every pass to its end
  (`Pass.run_events`). In the course of a workspace a pass stands where its own steps have led it,
  whatever goes on around it (`Workspace.standsAt_of_course`).
-/
import MarkupLint.Proofs.StaleResults
import MarkupLint.Server.Step

namespace MarkupLint

/-! ## What a client is told -/

/-- A progress report of the pass of this number, which is its token. -/
def Progress.message (pass : Nat) (r : Progress) : ServerMessage :=
  .notification "$/progress"
    (.obj [("token", .str (ConfigValue.integerText pass)), ("value", r.toJson)])

def Publication.message (p : Publication) : ServerMessage :=
  .notification "textDocument/publishDiagnostics" (Publication.codec.write p)

/-- The message that a client gets for what a pass lets out. -/
def PassOutput.message? (pass : Nat) : PassOutput → Option ServerMessage
  | .progress r => some (r.message pass)
  | .publish p => some p.message
  | .log _ => none

/-- A server that has a client sends it these messages and no others. -/
theorem Server.send_mem_display {s : Server} (hs : s.isConnected = true) (pass : Nat)
    (o : PassOutput) (m : ServerMessage) :
    .send m ∈ s.display pass o ↔ o.message? pass = some m := by
  have hpost : ∀ m', .send m ∈ s.post m' ↔ m' = m := by
    intro m'
    rw [Server.post, if_pos hs, List.mem_singleton, ServerOutput.send.injEq]
    exact eq_comm
  cases o with
  | progress r => exact (hpost _).trans (Option.some_inj).symm
  | publish p => exact (hpost _).trans (Option.some_inj).symm
  | log e => simp [Server.display, PassOutput.message?]

/-! ## Findings -/

/-- What a pass learns on its way. -/
structure Findings where
  /-- the settings for all documents, as they are at the start -/
  global : Settings
  settings : SettingsResult
  config : Except Failure Config
  /-- the settings came in before the configuration -/
  settingsFirst : Bool
  /-- what the linter says, if it gets to work -/
  linted : Except Failure (Option (List Issue))
  canceled : Bool
  /-- the open documents at the last check, if there is one -/
  documents : Documents

namespace Findings

variable (F : Findings) (uri : String) (version : Int)

/-- The settings that the pass goes by: without those of the document, those for all documents. -/
def inForce : Settings :=
  match F.settings with
  | .ok s => s
  | .error _ => F.global

/-- Why the pass fails, if it does. When there are neither settings nor a configuration, what failed
    first counts. -/
def failure? : Option Failure :=
  match F.settings, F.config with
  | .ok _, .ok _ =>
    match F.linted with
    | .ok _ => none
    | .error f => some (.engine uri f)
  | .ok _, .error f => some f
  | .error f, .ok _ => some (.remark ("cannot get settings for " ++ uri) f)
  | .error f, .error g =>
    some (if F.settingsFirst then .remark ("cannot get settings for " ++ uri) f else g)

/-- The issues that the linter found. -/
def issues : List Issue :=
  match F.linted with
  | .ok found => found.getD []
  | .error _ => []

/-- The diagnostics of all issues, cut to the number that the settings allow if they set a limit. -/
def diagnostics : List Diagnostic :=
  if F.inForce.maxNumberOfProblems ≤ 0 then diagnoseAll F.inForce F.issues
  else (diagnoseAll F.inForce F.issues).take F.inForce.maxNumberOfProblems.toNat

/-- The outcome is still wanted: the pass was not cancelled, and the document is open at its
    version. -/
def Wanted : Prop :=
  F.canceled = false ∧ ∃ d, F.documents.get? uri = some d ∧ d.version = version

instance : Decidable (F.Wanted uri version) :=
  decidable_of_iff (F.canceled = false ∧ F.documents.isCurrent uri version = true)
    (and_congr_right fun _ => Documents.isCurrent_iff)

/-- What should be shown to the client. -/
def publication? : Option Publication :=
  if F.Wanted uri version then
    match F.failure? uri with
    | none => some ⟨uri, some F.diagnostics, version⟩
    | some f =>
      if F.inForce.reportErrors = some false then none else some ⟨uri, some [f.diagnostic], version⟩
  else none

/-- The failure that the pass should end with. -/
def result : Option Failure := if F.Wanted uri version then F.failure? uri else none

end Findings

/-! ## Steps of a pass -/

namespace Pass

variable {p p' q : Pass} {d : Document} {es fs : List PassEvent} {out rest : List PassOutput}
  {r : Option Failure} {v : Validation}

/-- Takes steps in turn. -/
def run (p : Pass) : List PassEvent → Option (Pass × List PassOutput)
  | [] => some (p, [])
  | e :: es =>
    match p.step e with
    | none => none
    | some (p, out) => (run p es).map fun x => (x.1, out ++ x.2)

theorem run_cons_iff {e : PassEvent} :
    p.run (e :: es) = some (q, out) ↔
      ∃ p' o rest, p.step e = some (p', o) ∧ p'.run es = some (q, rest) ∧ out = o ++ rest := by
  rw [run]
  cases hstep : p.step e with
  | none => simp
  | some x =>
    obtain ⟨p', o⟩ := x
    constructor
    · intro h
      obtain ⟨⟨q', rest⟩, hrun, heq⟩ := Option.map_eq_some_iff.mp h
      obtain ⟨rfl, rfl⟩ := Prod.mk.inj heq
      exact ⟨p', o, rest, rfl, hrun, rfl⟩
    · rintro ⟨p'', o', rest, heq, hrun, rfl⟩
      obtain ⟨rfl, rfl⟩ := Prod.mk.inj (Option.some.inj heq)
      show (p'.run es).map _ = _
      rw [hrun]
      rfl

/-- Runs are put together, and so is what they let out. -/
theorem run_append (h : p.run es = some (p', out)) (h' : p'.run fs = some (q, rest)) :
    p.run (es ++ fs) = some (q, out ++ rest) := by
  induction es generalizing p out with
  | nil =>
    obtain ⟨rfl, rfl⟩ := Prod.mk.inj (Option.some.inj h)
    exact h'
  | cons e es ih =>
    obtain ⟨p₁, o, out', hstep, hrun, rfl⟩ := run_cons_iff.mp h
    exact run_cons_iff.mpr ⟨p₁, o, out' ++ rest, hstep, ih hrun, List.append_assoc ..⟩

theorem run_singleton {e : PassEvent} (h : p.step e = some (q, out)) : p.run [e] = some (q, out) :=
  run_cons_iff.mpr ⟨q, out, [], h, rfl, (List.append_nil out).symm⟩

/-- Each of the effects is one of a step. -/
theorem Effect.step_eq {e : PassEvent} (h : Effect p e p' out) : p.step e = some (p', out) := by
  cases h with
  | current ds v hφ hcurrent => simp [step, hφ, hcurrent]
  | stale ds v hφ hstale => simp [step, hφ, hstale]
  | readGlobal _ hφ | found _ _ _ hφ | failed _ _ _ hφ | canceled _ hφ | notCanceled _ hφ
  | publish _ hφ | finish _ hφ | gotSettings _ _ _ _ hφ | gotConfig _ _ _ _ hφ => simp [step, hφ]

/-- A pass that has not ended takes another step on its way to its end. -/
theorem exists_step_of_ended (h : p.run es = some (q, out)) (hq : q.phase = .ended r)
    (hp : ∀ r, p.phase ≠ .ended r) :
    ∃ e es' p' o rest, es = e :: es' ∧ p.step e = some (p', o) ∧ p'.run es' = some (q, rest) := by
  cases es with
  | nil =>
    obtain ⟨rfl, -⟩ := Prod.mk.inj (Option.some.inj h)
    exact absurd hq (hp r)
  | cons e es =>
    obtain ⟨p', o, rest, hstep, hrun, -⟩ := run_cons_iff.mp h
    exact ⟨e, es, p', o, rest, rfl, hstep, hrun⟩

/-- The steps of a pass that has its outcome: it checks twice, and shows the outcome if it is still
    wanted. -/
def checks (canceled : Bool) (documents : Documents) (uri : String) (version : Int) :
    List PassEvent :=
  if canceled then [.checkCanceled true, .finish]
  else if documents.isCurrent uri version then
    [.checkCanceled false, .checkCurrent documents, .publish, .finish]
  else [.checkCanceled false, .checkCurrent documents, .finish]

end Pass

namespace Findings

variable (F : Findings) (uri : String) (version : Int)

/-- The steps that get a pass its settings and its configuration. -/
def lookups : List PassEvent :=
  if F.settingsFirst then [.gotSettings F.settings, .gotConfig F.config]
  else [.gotConfig F.config, .gotSettings F.settings]

/-- The linter gets to work on settings and a configuration only. -/
def linting : List PassEvent :=
  if F.settings.isOk && F.config.isOk then [.linted F.linted] else []

/-- The steps of a pass that learns this, from its first to its last. -/
def events : List PassEvent :=
  [.readGlobal F.global] ++ F.lookups ++ F.linting ++ Pass.checks F.canceled F.documents uri version

/-- The outcome of a pass that learns this. -/
def validation (d : Document) : Validation :=
  match F.failure? d.uri with
  | none => ⟨d.uri, d.version, some F.diagnostics, F.inForce, none⟩
  | some f => ⟨d.uri, d.version, none, F.inForce, some f⟩

/-- The outcome is about the document, and has the failure of the findings. -/
theorem validation_about (d : Document) :
    (F.validation d).uri = d.uri ∧ (F.validation d).version = d.version ∧
      (F.validation d).failure = F.failure? d.uri := by
  unfold validation
  split <;> simp_all

end Findings

/-! ## Every pass comes to its end -/

namespace Pass

variable {p p' q : Pass} {d : Document} {es fs : List PassEvent} {out rest : List PassOutput}
  {r : Option Failure} {v : Validation}

/-- The settings cut the list of diagnostics only if their limit is positive. -/
theorem limit_eq_diagnostics (F : Findings) :
    F.inForce.limit (diagnoseAll F.inForce F.issues) = F.diagnostics := by
  unfold Settings.limit Findings.diagnostics
  by_cases h : 0 < F.inForce.maxNumberOfProblems
  · rw [if_pos h, if_neg (Int.not_le.mpr h)]
  · rw [if_neg h, if_pos (Int.not_lt.mp h)]

/-- Whatever it learns, a pass comes by its outcome, and lets nothing out on the way. -/
theorem run_to_validation (F : Findings) (d : Document) :
    run ⟨d, .begun⟩ ([.readGlobal F.global] ++ F.lookups ++ F.linting) =
      some (⟨d, .judged (F.validation d)⟩, []) := by
  have hlimit := limit_eq_diagnostics F
  obtain ⟨global, settings, config, settingsFirst, linted, canceled, documents⟩ := F
  -- one case for each order and for each of the lookups, and the linter only where it is asked
  cases settings with
  | error f => cases config <;> cases settingsFirst <;> rfl
  | ok s =>
    cases config with
    | error g => cases settingsFirst <;> rfl
    | ok c =>
      cases linted with
      | error f => cases settingsFirst <;> rfl
      | ok found =>
        have hfound : Pass.found d s (found.getD []) =
            Findings.validation ⟨global, .ok s, .ok c, settingsFirst, .ok found, canceled,
              documents⟩ d :=
          congrArg (fun ds => Validation.mk d.uri d.version (some ds) s none) hlimit
        rw [← hfound]
        cases settingsFirst <;> rfl

/-- The messages about a pass from its outcome on: the outcome, if there is anything to show, and
    the end of the pass. -/
def closingMessages (n : Nat) (q : Option Publication) : List ServerMessage :=
  q.toList.map Publication.message ++ [(Progress.done none).message n]

/-- What a pass lets out at its end, as messages. -/
theorem filterMap_message?_publish (n : Nat) (q : Option Publication) :
    (q.toList.map PassOutput.publish ++ [PassOutput.progress (.done none)]).filterMap
      (·.message? n) = closingMessages n q := by
  cases q <;> rfl

/-- A pass that has its outcome shows it and ends with its failure if it is still wanted, and else
    drops both. -/
theorem run_checks (F : Findings) (d : Document) (v : Validation) :
    ∃ out, run ⟨d, .judged v⟩ (checks F.canceled F.documents v.uri v.version) =
        some (⟨d, .ended (if F.Wanted v.uri v.version then v.failure else none)⟩, out) ∧
      ∀ n, out.filterMap (·.message? n) =
        closingMessages n (if F.Wanted v.uri v.version then v.publication? else none) := by
  -- the outcome is wanted if both checks pass
  have hwanted : F.Wanted v.uri v.version ↔
      F.canceled = false ∧ F.documents.isCurrent v.uri v.version = true :=
    and_congr_right fun _ => Documents.isCurrent_iff.symm
  unfold checks
  cases hcanceled : F.canceled with
  | true =>
    have hno : ¬ F.Wanted v.uri v.version := by
      intro h
      exact absurd (hcanceled.symm.trans h.1) (by simp)
    rw [if_neg hno, if_neg hno]
    exact ⟨_, rfl, fun n => rfl⟩
  | false =>
    cases hcurrent : F.documents.isCurrent v.uri v.version with
    | true =>
      have hyes := hwanted.mpr ⟨hcanceled, hcurrent⟩
      rw [if_pos hyes, if_pos hyes]
      refine ⟨v.publication?.toList.map .publish ++ [.progress (.done none)], ?_,
        fun n => filterMap_message?_publish n _⟩
      simp [run, step, hcurrent]
    | false =>
      have hno : ¬ F.Wanted v.uri v.version := by
        intro h
        exact absurd (hcurrent.symm.trans (hwanted.mp h).2) (by simp)
      rw [if_neg hno, if_neg hno]
      refine ⟨[.log ⟨.debug, "dropping stale diagnostics for " ++ naming d⟩,
        .progress (.done none)], ?_, fun n => rfl⟩
      simp [run, step, hcurrent]

/-- Failures are shown unless the settings say otherwise. -/
theorem reportsErrors_iff (s : Settings) :
    s.reportsErrors = true ↔ s.reportErrors ≠ some false := by
  unfold Settings.reportsErrors
  cases s.reportErrors with
  | none => simp
  | some b => cases b <;> simp

/-- The outcome of the findings is shown as the findings say. -/
theorem publication?_validation (F : Findings) (d : Document) :
    (if F.Wanted d.uri d.version then (F.validation d).publication? else none) =
      F.publication? d.uri d.version := by
  unfold Findings.publication? Findings.validation Validation.publication?
  cases F.failure? d.uri with
  | none => rfl
  | some f =>
    have hreports := reportsErrors_iff F.inForce
    by_cases h : F.inForce.reportErrors = some false
    · simp [h, Settings.reportsErrors]
    · simp [h, hreports.mpr h]

/-- **Findings lead a pass to its end.** -/
theorem run_events (F : Findings) (d : Document) :
    ∃ out, run ⟨d, .begun⟩ (F.events d.uri d.version) =
        some (⟨d, .ended (F.result d.uri d.version)⟩, out) ∧
      ∀ n, out.filterMap (·.message? n) = closingMessages n (F.publication? d.uri d.version) := by
  obtain ⟨huri, hversion, hfailure⟩ := F.validation_about d
  obtain ⟨out, hrun, hmessages⟩ := run_checks F d (F.validation d)
  rw [huri, hversion] at hrun hmessages
  rw [hfailure] at hrun
  rw [publication?_validation] at hmessages
  exact ⟨[] ++ out, run_append (run_to_validation F d) hrun, hmessages⟩

/-! ## The steps of a pass that has ended -/

/-- A pass that has ended takes no step. -/
theorem nil_of_run_ended (h : run ⟨d, .ended r⟩ es = some (q, out)) : es = [] := by
  cases es with
  | nil => rfl
  | cons e es =>
    obtain ⟨p', o, rest, hstep, -⟩ := run_cons_iff.mp h
    cases e <;> exact absurd hstep (by simp [step])

variable {failure : Option Failure}

/-- A pass that is about to end ends. -/
theorem events_of_closing (h : run ⟨d, .closing failure⟩ es = some (q, out))
    (hq : q.phase = .ended r) : es = [.finish] := by
  obtain ⟨e, es', p', o, rest, rfl, hstep, hrun⟩ := exists_step_of_ended h hq (by simp)
  cases e with
  | finish =>
    obtain ⟨rfl, -⟩ := Prod.mk.inj (Option.some.inj hstep)
    rw [nil_of_run_ended hrun]
  | _ => exact absurd hstep (by simp [step])

/-- A pass whose document is at its version shows its outcome first. -/
theorem events_of_fresh (h : run ⟨d, .fresh v⟩ es = some (q, out)) (hq : q.phase = .ended r) :
    es = [.publish, .finish] := by
  obtain ⟨e, es', p', o, rest, rfl, hstep, hrun⟩ := exists_step_of_ended h hq (by simp)
  cases e with
  | publish =>
    obtain ⟨rfl, -⟩ := Prod.mk.inj (Option.some.inj hstep)
    rw [events_of_closing hrun hq]
  | _ => exact absurd hstep (by simp [step])

/-- A pass that was not cancelled checks its document, and goes on by what it finds. -/
theorem events_of_live (h : run ⟨d, .live v⟩ es = some (q, out)) (hq : q.phase = .ended r) :
    ∃ documents, .checkCanceled false :: es = checks false documents v.uri v.version := by
  obtain ⟨e, es', p', o, rest, rfl, hstep, hrun⟩ := exists_step_of_ended h hq (by simp)
  cases e with
  | checkCurrent documents =>
    refine ⟨documents, ?_⟩
    -- the document is at its version, or the outcome is dropped
    cases effect_of_step hstep with
    | current _ v' hφ hcurrent =>
      obtain rfl := PassPhase.live.inj hφ
      rw [events_of_fresh hrun hq, checks, if_neg (by simp), if_pos hcurrent]
    | stale _ v' hφ hstale =>
      obtain rfl := PassPhase.live.inj hφ
      rw [events_of_closing hrun hq, checks, if_neg (by simp), if_neg (by simp [hstale])]
  | _ => exact absurd hstep (by simp [step])

/-- A pass that has an outcome goes on with the checks. -/
theorem events_of_judged (h : run ⟨d, .judged v⟩ es = some (q, out)) (hq : q.phase = .ended r) :
    ∃ canceled documents, es = checks canceled documents v.uri v.version := by
  obtain ⟨e, es', p', o, rest, rfl, hstep, hrun⟩ := exists_step_of_ended h hq (by simp)
  cases e with
  | checkCanceled canceled =>
    cases canceled with
    | true =>
      obtain ⟨rfl, -⟩ := Prod.mk.inj (Option.some.inj hstep)
      rw [events_of_closing hrun hq]
      exact ⟨true, [], rfl⟩
    | false =>
      obtain ⟨rfl, -⟩ := Prod.mk.inj (Option.some.inj hstep)
      obtain ⟨documents, hdocuments⟩ := events_of_live hrun hq
      exact ⟨false, documents, hdocuments⟩
  | _ => exact absurd hstep (by simp [step])

/-- Settings alone are not enough to go on. -/
theorem gathered_without_config (d : Document) (global : Settings) (settings : SettingsResult)
    (failure : Option Failure) : gathered d global (some settings) none failure =
      .gathering global (some settings) none failure := by
  cases settings <;> rfl

/-- With both lookups done a pass goes on to the linter, or straight to the checks if one of them
    failed. -/
theorem events_of_gathered {global : Settings} {settings : SettingsResult}
    {config : Except Failure Config}
    (h : run ⟨d, gathered d global (some settings) (some config) failure⟩ es = some (q, out))
    (hq : q.phase = .ended r) :
    ∃ linted canceled documents,
      es = (if settings.isOk && config.isOk then [.linted linted] else []) ++
        checks canceled documents d.uri d.version := by
  cases settings with
  | error f =>
    obtain ⟨canceled, documents, hes⟩ := events_of_judged h hq
    exact ⟨.ok none, canceled, documents, hes⟩
  | ok s =>
    cases config with
    | error g =>
      obtain ⟨canceled, documents, hes⟩ := events_of_judged h hq
      exact ⟨.ok none, canceled, documents, hes⟩
    | ok c =>
      obtain ⟨e, es', p', o, rest, rfl, hstep, hrun⟩ :=
        exists_step_of_ended h hq (by simp [gathered])
      cases e with
      | linted found =>
        obtain ⟨rfl, -⟩ := Prod.mk.inj (Option.some.inj hstep)
        obtain ⟨canceled, documents, rfl⟩ := events_of_judged hrun hq
        refine ⟨found, canceled, documents, ?_⟩
        cases found <;> rfl
      | _ => exact absurd hstep (by simp [step, gathered])

/-- **The steps of a pass that has ended are those of what it has learned**, in one of the two
    orders in which settings and configuration can come in. -/
theorem events_of_ended (h : run ⟨d, .begun⟩ es = some (q, out)) (hq : q.phase = .ended r) :
    ∃ F : Findings, es = F.events d.uri d.version := by
  obtain ⟨e, es, p₁, o₁, rest₁, rfl, hstep, hrun⟩ := exists_step_of_ended h hq (by simp)
  -- settings and configuration come in one after the other, in either order
  cases e with
  | readGlobal global =>
    obtain ⟨rfl, -⟩ := Prod.mk.inj (Option.some.inj hstep)
    obtain ⟨e, es, p₂, o₂, rest₂, rfl, hstep, hrun⟩ := exists_step_of_ended hrun hq (by simp)
    cases e with
    | gotSettings settings =>
      obtain ⟨rfl, -⟩ := Prod.mk.inj (Option.some.inj hstep)
      rw [gathered_without_config] at hrun
      obtain ⟨e, es, p₃, o₃, rest₃, rfl, hstep, hrun⟩ := exists_step_of_ended hrun hq (by simp)
      cases e with
      | gotConfig config =>
        obtain ⟨rfl, -⟩ := Prod.mk.inj (Option.some.inj hstep)
        obtain ⟨linted, canceled, documents, rfl⟩ := events_of_gathered hrun hq
        exact ⟨⟨global, settings, config, true, linted, canceled, documents⟩, rfl⟩
      | _ => exact absurd hstep (by simp [step])
    | gotConfig config =>
      obtain ⟨rfl, -⟩ := Prod.mk.inj (Option.some.inj hstep)
      obtain ⟨e, es, p₃, o₃, rest₃, rfl, hstep, hrun⟩ :=
        exists_step_of_ended hrun hq (by simp [gathered])
      cases e with
      | gotSettings settings =>
        obtain ⟨rfl, -⟩ := Prod.mk.inj (Option.some.inj hstep)
        obtain ⟨linted, canceled, documents, rfl⟩ := events_of_gathered hrun hq
        exact ⟨⟨global, settings, config, false, linted, canceled, documents⟩, rfl⟩
      | _ => exact absurd hstep (by simp [step, gathered])
    | _ => exact absurd hstep (by simp [step])
  | _ => exact absurd hstep (by simp [step])

end Pass

/-! ## Passes in the course of a workspace -/

/-- The pass that an event begins or is a step of. -/
def WorkspaceEvent.passIn? (w : Workspace) : WorkspaceEvent → Option Nat
  | .begin _ _ => some w.passes.length
  | e => e.pass?

namespace WorkspaceEvent

variable {w : Workspace} {e : WorkspaceEvent} {n : Nat}

theorem passIn?_of_pass? (h : e.pass? = some n) : e.passIn? w = some n := by
  cases e with
  | begin _ _ => exact absurd h nofun
  | _ => exact h

/-- An event of a pass is a step of it, or begins it. -/
theorem passIn?_cases (h : e.passIn? w = some n) :
    e.pass? = some n ∨ ∃ uri trigger, e = .begin uri trigger ∧ w.passes.length = n := by
  cases e with
  | begin uri trigger => exact .inr ⟨uri, trigger, rfl, Option.some.inj h⟩
  | _ => exact .inl h

end WorkspaceEvent

namespace Workspace

variable {ms : List Instant} {x : Instant} {w w' : Workspace} {e : WorkspaceEvent} {root : Bytes}
  {fetches : Bool} {out : List PassOutput} {n b : Nat} {uri : String} {d : Document}

/-- What a pass learns at a moment that is a step of it. -/
def learnedAt (n : Nat) (x : Instant) : Option PassEvent :=
  if x.event.pass? = some n then
    match x.event with
    | .readGlobal _ => some (.readGlobal x.state.session.global)
    | .gotSettings _ =>
      ((x.state.passes[n]?.bind (·.call)).bind x.state.settings.returned?).map .gotSettings
    | .gotConfig _ r => some (.gotConfig r)
    | .linted _ r => some (.linted r)
    | .checkCanceled _ canceled => some (.checkCanceled canceled)
    | .checkCurrent _ => some (.checkCurrent x.state.documents)
    | .publish _ => some .publish
    | .finish _ => some .finish
    | _ => none
  else none

/-- All that a pass learns in a course, in its order. -/
def learned (ms : List Instant) (n : Nat) : List PassEvent := ms.filterMap (learnedAt n)

/-- What the client is told at a moment that is a step of a pass or begins it. -/
def toldAt (n : Nat) (x : Instant) : List ServerMessage :=
  if x.event.passIn? x.state = some n then
    (((x.state.step x.event).map (·.2)).getD []).filterMap (·.message? n)
  else []

/-- All that the client is told of a pass in a course. -/
def told (ms : List Instant) (n : Nat) : List ServerMessage := ms.flatMap (toldAt n)

/-- A further moment adds what the pass learns at it. -/
theorem learned_snoc (ms : List Instant) (x : Instant) (n : Nat) :
    learned (ms ++ [x]) n = learned ms n ++ (learnedAt n x).toList := by
  unfold learned
  rw [List.filterMap_append]
  cases hx : learnedAt n x <;> simp [hx]

theorem told_snoc (ms : List Instant) (x : Instant) (n : Nat) :
    told (ms ++ [x]) n = told ms n ++ toldAt n x := by
  simp [told]

theorem learnedAt_of_ne (h : e.pass? ≠ some n) : learnedAt n ⟨w, e⟩ = none := if_neg h

/-- At a step of its own a pass learns what the event brings. -/
theorem learnedAt_of_brings {a : ActivePass} {pe : PassEvent} (ha : w.passes[n]? = some a)
    (h : Brings w a e n pe) : learnedAt n ⟨w, e⟩ = some pe := by
  rw [learnedAt, if_pos h.pass?_eq]
  cases h with
  | gotSettings _ c r hc hr => simp [ha, hc, hr]
  | _ => rfl

theorem toldAt_of_ne (h : e.passIn? w ≠ some n) : toldAt n ⟨w, e⟩ = [] := if_neg h

/-- The client is told what the step lets out. -/
theorem toldAt_of_step (he : e.passIn? w = some n) (h : w.step e = some (w', out)) :
    toldAt n ⟨w, e⟩ = out.filterMap (·.message? n) := by
  rw [toldAt, if_pos he, h]
  rfl

/-- A pass that an event begins or is a step of is there afterwards. -/
theorem Effect.lt_of_passIn? (h : Effect w e w' out) (he : e.passIn? w = some n) :
    n < w'.passes.length := by
  rcases WorkspaceEvent.passIn?_cases he with hpass | ⟨uri, trigger, rfl, rfl⟩
  · obtain ⟨a, -, -, ha, -⟩ := h.of_pass? hpass
    have hn : n < w.passes.length := (List.getElem?_eq_some_iff.mp ha).1
    have := h.passes_length_le
    omega
  · cases h with
    | begin _ _ _ _ => simp
    | pass _ _ _ _ _ _ _ hbrings _ => exact absurd hbrings nofun

/-- A pass stands where what it has learned has led it, and the client was told that it began and
    what it let out since. -/
def StandsAt (ms : List Instant) (w : Workspace) (n : Nat) (d : Document) : Prop :=
  ∃ a out, w.passes[n]? = some a ∧ Pass.run ⟨d, .begun⟩ (learned ms n) = some (a.pass, out) ∧
    told ms n =
      (Progress.begin "Linting document" none none).message n :: out.filterMap (·.message? n)

/-- Before a pass begins there is nothing to learn or to tell. -/
theorem untold_of_le (h : Course next (blank root fetches) ms w) (hn : w.passes.length ≤ n) :
    learned ms n = [] ∧ told ms n = [] := by
  induction h with
  | nil => exact ⟨rfl, rfl⟩
  | @snoc ms w w' e h hstep ih =>
    obtain ⟨out, heff⟩ := effect_of_next hstep
    obtain ⟨hlearned, htold⟩ := ih (Nat.le_trans heff.passes_length_le hn)
    have hin : e.passIn? w ≠ some n := by
      intro he
      have := heff.lt_of_passIn? he
      omega
    have hpass : e.pass? ≠ some n := fun he => hin (WorkspaceEvent.passIn?_of_pass? he)
    rw [learned_snoc, told_snoc, hlearned, htold, learnedAt_of_ne hpass, toldAt_of_ne hin]
    exact ⟨rfl, rfl⟩

/-- A step of the workspace is somebody else's, or leads the pass on. -/
theorem StandsAt.step (h : StandsAt ms w n d) (hstep : w.step e = some (w', out)) :
    StandsAt (ms ++ [⟨w, e⟩]) w' n d := by
  obtain ⟨a, out₀, ha, hrun, htold⟩ := h
  have heff := effect_of_step hstep
  unfold StandsAt
  rw [learned_snoc, told_snoc]
  rcases heff.pass_cases ha with ⟨a', ha', hsame, hne⟩ | ⟨pe, p, ha', hbrings, hp⟩
  · -- somebody else's step: the pass neither learns nor lets out anything
    have hin : e.passIn? w ≠ some n := by
      intro he
      have hn : n < w.passes.length := (List.getElem?_eq_some_iff.mp ha).1
      rcases WorkspaceEvent.passIn?_cases he with hpass | ⟨-, -, -, hnew⟩
      · exact hne hpass
      · omega
    rw [learnedAt_of_ne hne, toldAt_of_ne hin, htold]
    refine ⟨a', out₀, ha', ?_, by simp⟩
    rw [hsame]
    simpa using hrun
  · have hin : e.passIn? w = some n := WorkspaceEvent.passIn?_of_pass? hbrings.pass?_eq
    rw [learnedAt_of_brings ha hbrings, toldAt_of_step hin hstep, htold]
    refine ⟨{ a with pass := p }, out₀ ++ out, ha',
      Pass.run_append hrun (Pass.run_singleton hp.step_eq), ?_⟩
    simp

/-- What a run preserves: every pass stands where what it has learned has led it. -/
theorem standsAt_of_course (h : Course next (blank root fetches) ms w) (hb : TakesAt ms n uri d b) :
    StandsAt ms w n d := by
  induction h with
  | nil =>
    obtain ⟨w, trigger, hb, -⟩ := hb
    exact absurd hb (by simp)
  | @snoc ms w w' e h hnext ih =>
    obtain ⟨⟨v, out⟩, hstep, rfl⟩ := Option.map_eq_some_iff.mp hnext
    obtain ⟨u, trigger, hb, hn, hd⟩ := hb
    rcases getElem?_snoc_cases hb with hold | ⟨-, heq⟩
    · exact (ih ⟨u, trigger, hold, hn, hd⟩).step hstep
    · -- the pass begins at this moment, with nothing learned yet
      obtain ⟨rfl, rfl⟩ := Moment.mk.inj heq
      obtain ⟨hlearned, htold⟩ := untold_of_le h (Nat.le_of_eq hn)
      unfold StandsAt
      have hin : WorkspaceEvent.passIn? u (.begin uri trigger) = some n := congrArg some hn
      rw [learned_snoc, told_snoc, hlearned, htold, learnedAt_of_ne (by nofun),
        toldAt_of_step hin hstep]
      cases effect_of_step hstep with
      | begin _ _ d' hd' =>
        obtain rfl := Option.some.inj (hd.symm.trans hd')
        refine ⟨{ pass := ⟨d, .begun⟩ }, [], ?_, rfl, rfl⟩
        rw [← hn, List.getElem?_concat_length]
      | pass _ _ _ _ _ _ _ hbrings _ => exact absurd hbrings nofun

/-- A pass has the document of the URI that it was begun for. -/
theorem uri_eq_of_takesAt (h : Course next (blank root fetches) ms w) (hb : TakesAt ms n uri d b) :
    d.uri = uri := by
  obtain ⟨v, trigger, hms, -, hd⟩ := hb
  exact keyed_of_course (h.take hms) uri d hd

/-- **The outcome of a pass.** Whatever a pass learns leads it to its end. Let passes, operations on
    documents and changes of the session interleave in any way: of a pass that has ended, the client
    was told its beginning first and its end last, under one token, and between them what follows
    from what the pass has learned and nothing else; and it has ended with the failure that follows.
    Failures are shown on the first line. -/
theorem pass_outcome (h : Course next (blank root fetches) ms w) (hb : TakesAt ms n uri d b) :
    (∀ F : Findings, ∃ out, Pass.run ⟨d, .begun⟩ (F.events uri d.version) =
      some (⟨d, .ended (F.result uri d.version)⟩, out)) ∧
    (∀ a failure, w.passes[n]? = some a → a.pass.phase = .ended failure →
      ∃ F : Findings, learned ms n = F.events uri d.version ∧ failure = F.result uri d.version ∧
        told ms n =
          [(Progress.begin "Linting document" none none).message n] ++
          (F.publication? uri d.version).toList.map Publication.message ++
          [(Progress.done none).message n]) ∧
    ∀ f : Failure, f.diagnostic.range = ⟨⟨0, 0⟩, ⟨0, 1⟩⟩ := by
  obtain rfl := uri_eq_of_takesAt h hb
  refine ⟨fun F => ?_, fun a failure ha hended => ?_, fun f => rfl⟩
  · obtain ⟨out, hrun, -⟩ := Pass.run_events F d
    exact ⟨out, hrun⟩
  · obtain ⟨a', out, ha', hrun, htold⟩ := standsAt_of_course h hb
    obtain rfl := Option.some.inj (ha.symm.trans ha')
    obtain ⟨F, hlearned⟩ := Pass.events_of_ended hrun hended
    obtain ⟨out', hrun', hmessages⟩ := Pass.run_events F d
    -- findings leave no choice, so the pass stands where they lead it
    obtain ⟨hpass, rfl⟩ : a.pass = ⟨d, .ended (F.result d.uri d.version)⟩ ∧ out = out' := by
      rw [hlearned, hrun'] at hrun
      obtain ⟨hpass, hout⟩ := Prod.mk.inj (Option.some.inj hrun)
      exact ⟨hpass.symm, hout.symm⟩
    refine ⟨F, hlearned, ?_, ?_⟩
    · rw [hpass] at hended
      exact (PassPhase.ended.inj hended).symm
    · rw [htold, hmessages]
      rfl

/-- A pass over a document whose configuration cannot be had. -/
def withoutConfig : List WorkspaceEvent :=
  [.opened "a" "html" 1 [1], .begin "a" .opened, .readGlobal 0, .gotConfig 0 (.error .broken),
    .ask 0 false, .settings (.takeGlobal 0), .gotSettings 0, .checkCanceled 0 false,
    .checkCurrent 0, .publish 0, .finish 0]

/-- The client is shown the failure, between the beginning and the end of the pass. -/
theorem pass_outcome_withoutConfig :
    ∃ F : Findings, F.result "a" 1 = some .broken ∧
      told (Course.moments next (blank [] false) withoutConfig) 0 =
        [(Progress.begin "Linting document" none none).message 0,
          (Publication.mk "a" (some [Failure.broken.diagnostic]) 1).message,
          (Progress.done none).message 0] ∧
      told (Course.moments next (blank [] false) withoutConfig) 0 =
        [(Progress.begin "Linting document" none none).message 0] ++
        (F.publication? "a" 1).toList.map Publication.message ++
          [(Progress.done none).message 0] := by
  obtain ⟨d, hversion, htakes⟩ : ∃ d : Document, d.version = 1 ∧
      TakesAt (Course.moments next (blank [] false) withoutConfig) 0 "a" d 1 :=
    ⟨_, rfl, _, _, rfl, rfl, rfl⟩
  obtain ⟨F, -, hresult, htold⟩ :=
    (pass_outcome (Course.of_events withoutConfig rfl) htakes).2.1 _ (some .broken) rfl rfl
  rw [hversion] at hresult htold
  exact ⟨F, hresult.symm, rfl, htold⟩

end Workspace
end MarkupLint
