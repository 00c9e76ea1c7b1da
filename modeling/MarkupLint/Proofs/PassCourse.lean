/-
  Passes and the workspace around them, step by step: what each step can do, said once.

  `Pass.effect_of_step` and `Workspace.effect_of_step` take steps apart into the cases of
  `Pass.Effect` and `Workspace.Effect`. A pass keeps the document that it has taken at its start
  (`Pass.Effect.document_eq`), and whatever it judges, checks and shows is about this document at
  its version (`Pass.Sound`).
-/
import MarkupLint.Proofs.Course
import MarkupLint.Proofs.Table
import MarkupLint.Validation.Workspace

namespace MarkupLint

/-! ## Passes -/

/-- The outcome that a pass has in hand. -/
def PassPhase.validation? : PassPhase → Option Validation
  | .judged v | .live v | .fresh v => some v
  | .begun | .gathering .. | .linting .. | .closing _ | .ended _ => none

/-- A pass in this phase has not checked yet whether its document is at its version. -/
def PassPhase.isUnchecked : PassPhase → Bool
  | .begun | .gathering .. | .linting .. | .judged _ | .live _ => true
  | .fresh _ | .closing _ | .ended _ => false

/-- A pass in this phase has no outcome yet, and has not had one. -/
def PassPhase.isUnjudged : PassPhase → Bool
  | .begun | .gathering .. | .linting .. => true
  | .judged _ | .live _ | .fresh _ | .closing _ | .ended _ => false

/-- A pass in this phase has not got its settings yet. -/
def PassPhase.lacksSettings : PassPhase → Bool
  | .begun | .gathering _ none _ _ => true
  | _ => false

namespace Pass

variable {p p' : Pass} {e : PassEvent} {out : List PassOutput}

/-- What a step of a pass can do, one case for each way in which it can go. -/
inductive Effect (p : Pass) : PassEvent → Pass → List PassOutput → Prop where
  | readGlobal (global : Settings) (hφ : p.phase = .begun) :
      Effect p (.readGlobal global) { p with phase := .gathering global none none none } []
  | gotSettings (r : SettingsResult) (global : Settings) (config : Option (Except Failure Config))
      (failure : Option Failure) (hφ : p.phase = .gathering global none config failure) :
      Effect p (.gotSettings r)
        { p with phase := gathered p.document global (some r) config (firstFailure failure
            (r.mapError (.remark ("cannot get settings for " ++ p.document.uri)))) } []
  | gotConfig (r : Except Failure Config) (global : Settings) (settings : Option SettingsResult)
      (failure : Option Failure) (hφ : p.phase = .gathering global settings none failure) :
      Effect p (.gotConfig r)
        { p with phase := gathered p.document global settings (some r) (firstFailure failure r) } []
  | found (issues : Option (List Issue)) (settings : Settings) (config : Config)
      (hφ : p.phase = .linting settings config) :
      Effect p (.linted (.ok issues))
        { p with phase := .judged (found p.document settings (issues.getD [])) } []
  | failed (f : Failure) (settings : Settings) (config : Config)
      (hφ : p.phase = .linting settings config) :
      Effect p (.linted (.error f))
        { p with phase := .judged (failed p.document settings (.engine p.document.uri f)) } []
  | canceled (v : Validation) (hφ : p.phase = .judged v) :
      Effect p (.checkCanceled true) { p with phase := .closing none }
        [.log ⟨.debug, "validation of " ++ naming p.document ++ " cancelled"⟩]
  | notCanceled (v : Validation) (hφ : p.phase = .judged v) :
      Effect p (.checkCanceled false) { p with phase := .live v } []
  | current (ds : Documents) (v : Validation) (hφ : p.phase = .live v)
      (hcurrent : ds.isCurrent v.uri v.version = true) :
      Effect p (.checkCurrent ds) { p with phase := .fresh v } []
  | stale (ds : Documents) (v : Validation) (hφ : p.phase = .live v)
      (hstale : ds.isCurrent v.uri v.version = false) :
      Effect p (.checkCurrent ds) { p with phase := .closing none }
        [.log ⟨.debug, "dropping stale diagnostics for " ++ naming p.document⟩]
  | publish (v : Validation) (hφ : p.phase = .fresh v) :
      Effect p .publish { p with phase := .closing v.failure } (v.publication?.toList.map .publish)
  | finish (failure : Option Failure) (hφ : p.phase = .closing failure) :
      Effect p .finish { p with phase := .ended failure } [.progress (.done none)]

/-- Every step of a pass has one of the effects. -/
theorem effect_of_step (h : p.step e = some (p', out)) : Effect p e p' out := by
  cases e with
  | readGlobal global =>
    simp only [step] at h
    split at h
    · obtain ⟨rfl, rfl⟩ := Prod.mk.inj (Option.some.inj h)
      exact .readGlobal global ‹_›
    · exact absurd h (by simp)
  | gotSettings r =>
    simp only [step] at h
    split at h
    · obtain ⟨rfl, rfl⟩ := Prod.mk.inj (Option.some.inj h)
      exact .gotSettings r _ _ _ ‹_›
    · exact absurd h (by simp)
  | gotConfig r =>
    simp only [step] at h
    split at h
    · obtain ⟨rfl, rfl⟩ := Prod.mk.inj (Option.some.inj h)
      exact .gotConfig r _ _ _ ‹_›
    · exact absurd h (by simp)
  | linted r =>
    simp only [step] at h
    split at h
    · obtain ⟨rfl, rfl⟩ := Prod.mk.inj (Option.some.inj h)
      cases r with
      | ok issues => exact .found issues _ _ ‹_›
      | error f => exact .failed f _ _ ‹_›
    · exact absurd h (by simp)
  | checkCanceled canceled =>
    simp only [step] at h
    split at h
    · cases canceled with
      | true =>
        obtain ⟨rfl, rfl⟩ := Prod.mk.inj (Option.some.inj h)
        exact .canceled _ ‹_›
      | false =>
        obtain ⟨rfl, rfl⟩ := Prod.mk.inj (Option.some.inj h)
        exact .notCanceled _ ‹_›
    · exact absurd h (by simp)
  | checkCurrent ds =>
    simp only [step] at h
    split at h
    · rename_i v hφ
      cases hcurrent : ds.isCurrent v.uri v.version with
      | true =>
        rw [hcurrent, if_pos rfl] at h
        obtain ⟨rfl, rfl⟩ := Prod.mk.inj (Option.some.inj h)
        exact .current ds v hφ hcurrent
      | false =>
        rw [hcurrent, if_neg (by simp)] at h
        obtain ⟨rfl, rfl⟩ := Prod.mk.inj (Option.some.inj h)
        exact .stale ds v hφ hcurrent
    · exact absurd h (by simp)
  | publish =>
    simp only [step] at h
    split at h
    · obtain ⟨rfl, rfl⟩ := Prod.mk.inj (Option.some.inj h)
      exact .publish _ ‹_›
    · exact absurd h (by simp)
  | finish =>
    simp only [step] at h
    split at h
    · obtain ⟨rfl, rfl⟩ := Prod.mk.inj (Option.some.inj h)
      exact .finish _ ‹_›
    · exact absurd h (by simp)

/-- A pass keeps the document that it has taken at its start. -/
theorem Effect.document_eq (h : Effect p e p' out) : p'.document = p.document := by
  cases h <;> rfl

/-- The outcome in hand is about the document of the pass, at its version. -/
def Sound (p : Pass) : Prop :=
  ∀ v, p.phase.validation? = some v → v.uri = p.document.uri ∧ v.version = p.document.version

/-- When all that a pass gathers leads to an outcome at once, something of it has failed. -/
theorem failed_of_gathered {d : Document} {global : Settings} {settings : Option SettingsResult}
    {config : Option (Except Failure Config)} {failure : Option Failure} {v : Validation}
    (h : (gathered d global settings config failure).validation? = some v) :
    ∃ inForce f, v = failed d inForce f := by
  unfold gathered at h
  split at h
  · exact absurd h (by simp [PassPhase.validation?])
  · exact ⟨_, _, (Option.some.inj h).symm⟩
  · exact absurd h (by simp [PassPhase.validation?])

/-- **What one step preserves**: the outcome in hand stays one about the document. -/
theorem Effect.sound (h : Effect p e p' out) (hp : p.Sound) : p'.Sound := by
  intro v hv
  cases h with
  | readGlobal global hφ => exact absurd hv (by simp [PassPhase.validation?])
  -- what is gathered leads to an outcome only by failing
  | gotSettings r global config failure hφ =>
    obtain ⟨_, _, rfl⟩ := failed_of_gathered hv
    exact ⟨rfl, rfl⟩
  | gotConfig r global settings failure hφ =>
    obtain ⟨_, _, rfl⟩ := failed_of_gathered hv
    exact ⟨rfl, rfl⟩
  | found issues settings config hφ => exact Option.some.inj hv ▸ ⟨rfl, rfl⟩
  | failed f settings config hφ => exact Option.some.inj hv ▸ ⟨rfl, rfl⟩
  | canceled w hφ => exact absurd hv (by simp [PassPhase.validation?])
  | notCanceled w hφ => exact hp v (by rw [hφ]; exact hv)
  | current ds w hφ hcurrent => exact hp v (by rw [hφ]; exact hv)
  | stale ds w hφ hstale => exact absurd hv (by simp [PassPhase.validation?])
  | publish w hφ => exact absurd hv (by simp [PassPhase.validation?])
  | finish failure hφ => exact absurd hv (by simp [PassPhase.validation?])

/-- A step of a pass that ends in a phase before the check begins in one and is not the check. A
    step that ends in the phase after it begins there, or is the check. -/
theorem Effect.unchecked_before (h : Effect p e p' out)
    (hp' : p'.phase.isUnchecked = true) :
    p.phase.isUnchecked = true ∧ ∀ ds, e ≠ .checkCurrent ds := by
  cases h with
  | readGlobal global hφ => simp [hφ, PassPhase.isUnchecked]
  | gotSettings r global config failure hφ => simp [hφ, PassPhase.isUnchecked]
  | gotConfig r global settings failure hφ => simp [hφ, PassPhase.isUnchecked]
  | found issues settings config hφ => simp [hφ, PassPhase.isUnchecked]
  | failed f settings config hφ => simp [hφ, PassPhase.isUnchecked]
  | notCanceled v hφ => simp [hφ, PassPhase.isUnchecked]
  | canceled v hφ => exact absurd hp' (by simp [PassPhase.isUnchecked])
  | current ds v hφ hcurrent => exact absurd hp' (by simp [PassPhase.isUnchecked])
  | stale ds v hφ hstale => exact absurd hp' (by simp [PassPhase.isUnchecked])
  | publish v hφ => exact absurd hp' (by simp [PassPhase.isUnchecked])
  | finish failure hφ => exact absurd hp' (by simp [PassPhase.isUnchecked])

/-- The outcome of a pass that gets this answer from the linter. -/
def answered (d : Document) (settings : Settings) :
    Except Failure (Option (List Issue)) → Validation
  | .ok issues => found d settings (issues.getD [])
  | .error f => failed d settings (.engine d.uri f)

/-- A pass that has an outcome in hand had it before, or gets it from the linter, or has failed
    without asking the linter. -/
theorem Effect.outcome_cases {v : Validation} (h : Effect p e p' out)
    (hv : p'.phase.validation? = some v) :
    (p.phase.validation? = some v ∧ ∀ r, e ≠ .linted r) ∨
    (∃ settings config r, p.phase = .linting settings config ∧ e = .linted r ∧
      v = answered p.document settings r) ∨
    (p.phase.isUnjudged = true ∧ (∀ r, e ≠ .linted r) ∧
      ∃ settings f, v = Pass.failed p.document settings f) := by
  cases h with
  | found issues settings config hφ =>
    exact .inr (.inl ⟨settings, config, .ok issues, hφ, rfl, (Option.some.inj hv).symm⟩)
  | failed f settings config hφ =>
    exact .inr (.inl ⟨settings, config, .error f, hφ, rfl, (Option.some.inj hv).symm⟩)
  | gotSettings r global config failure hφ =>
    exact .inr (.inr ⟨by rw [hφ]; rfl, by simp, failed_of_gathered hv⟩)
  | gotConfig r global settings failure hφ =>
    exact .inr (.inr ⟨by rw [hφ]; rfl, by simp, failed_of_gathered hv⟩)
  -- the checks leave the outcome as it is
  | notCanceled w hφ => exact .inl ⟨by rw [hφ]; exact hv, by simp⟩
  | current ds w hφ hcurrent => exact .inl ⟨by rw [hφ]; exact hv, by simp⟩
  | readGlobal global hφ => exact absurd hv (by simp [PassPhase.validation?])
  | canceled w hφ => exact absurd hv (by simp [PassPhase.validation?])
  | stale ds w hφ hstale => exact absurd hv (by simp [PassPhase.validation?])
  | publish w hφ => exact absurd hv (by simp [PassPhase.validation?])
  | finish failure hφ => exact absurd hv (by simp [PassPhase.validation?])

/-- A step of a pass that leaves it without an outcome found it without one, and was not the
    linter's answer. -/
theorem Effect.unjudged_before (h : Effect p e p' out) (hp' : p'.phase.isUnjudged = true) :
    p.phase.isUnjudged = true ∧ ∀ r, e ≠ .linted r := by
  cases h with
  | readGlobal global hφ => simp [hφ, PassPhase.isUnjudged]
  | gotSettings r global config failure hφ => simp [hφ, PassPhase.isUnjudged]
  | gotConfig r global settings failure hφ => simp [hφ, PassPhase.isUnjudged]
  | found issues settings config hφ => exact absurd hp' (by simp [PassPhase.isUnjudged])
  | failed f settings config hφ => exact absurd hp' (by simp [PassPhase.isUnjudged])
  | notCanceled v hφ => exact absurd hp' (by simp [PassPhase.isUnjudged])
  | canceled v hφ => exact absurd hp' (by simp [PassPhase.isUnjudged])
  | current ds v hφ hcurrent => exact absurd hp' (by simp [PassPhase.isUnjudged])
  | stale ds v hφ hstale => exact absurd hp' (by simp [PassPhase.isUnjudged])
  | publish v hφ => exact absurd hp' (by simp [PassPhase.isUnjudged])
  | finish failure hφ => exact absurd hp' (by simp [PassPhase.isUnjudged])

/-- Gathering does not lead to the checks. -/
theorem gathered_ne_fresh (d : Document) (global : Settings) (settings : Option SettingsResult)
    (config : Option (Except Failure Config)) (failure : Option Failure) (v : Validation) :
    gathered d global settings config failure ≠ .fresh v := by
  unfold gathered
  split <;> simp

/-- An outcome becomes fresh by a check that finds the document at its version. -/
theorem Effect.check_of_fresh {v : Validation}
    (h : Effect p e p' out) (hp' : p'.phase = .fresh v) :
    ∃ ds, e = .checkCurrent ds ∧ p.phase = .live v ∧ ds.isCurrent v.uri v.version = true := by
  cases h with
  | current ds v' hφ hcurrent =>
    obtain rfl : v' = v := PassPhase.fresh.inj hp'
    exact ⟨ds, rfl, hφ, hcurrent⟩
  | gotSettings r global config failure hφ => exact absurd hp' (gathered_ne_fresh _ _ _ _ _ _)
  | gotConfig r global settings failure hφ => exact absurd hp' (gathered_ne_fresh _ _ _ _ _ _)
  | readGlobal global hφ => exact absurd hp' (by simp)
  | found issues settings config hφ => exact absurd hp' (by simp)
  | failed f settings config hφ => exact absurd hp' (by simp)
  | notCanceled v' hφ => exact absurd hp' (by simp)
  | canceled v' hφ => exact absurd hp' (by simp)
  | stale ds v' hφ hstale => exact absurd hp' (by simp)
  | publish v' hφ => exact absurd hp' (by simp)
  | finish failure hφ => exact absurd hp' (by simp)

/-- Without settings, gathering goes on. -/
theorem gathered_lacksSettings (d : Document) (global : Settings)
    (config : Option (Except Failure Config)) (failure : Option Failure) :
    (gathered d global none config failure).lacksSettings = true := by
  cases config <;> rfl

/-- A pass gets its settings in one step only. -/
theorem Effect.gotSettings_of_lacks (h : Effect p e p' out) (hp : p.phase.lacksSettings = true)
    (hp' : p'.phase.lacksSettings = false) : ∃ r, e = .gotSettings r := by
  -- all later phases have the settings already
  have hlater : ∀ φ, p.phase = φ → φ.lacksSettings ≠ false := by
    intro φ hφ hno
    rw [hφ, hno] at hp
    exact absurd hp (by simp)
  cases h with
  | readGlobal global hφ => exact absurd hp' (by simp [PassPhase.lacksSettings])
  | gotSettings r global config failure hφ => exact ⟨r, rfl⟩
  | gotConfig r global settings failure hφ =>
    cases settings with
    | none => rw [gathered_lacksSettings] at hp'; exact absurd hp' (by simp)
    | some s => exact absurd rfl (hlater _ hφ)
  | found issues settings config hφ => exact absurd rfl (hlater _ hφ)
  | failed f settings config hφ => exact absurd rfl (hlater _ hφ)
  | canceled v hφ => exact absurd rfl (hlater _ hφ)
  | notCanceled v hφ => exact absurd rfl (hlater _ hφ)
  | current ds v hφ hcurrent => exact absurd rfl (hlater _ hφ)
  | stale ds v hφ hstale => exact absurd rfl (hlater _ hφ)
  | publish v hφ => exact absurd rfl (hlater _ hφ)
  | finish failure hφ => exact absurd rfl (hlater _ hφ)

/-- What is shown is about the document and the version of the outcome. -/
theorem publication?_eq_some {v : Validation} {q : Publication} (h : v.publication? = some q) :
    q.uri = v.uri ∧ q.version = v.version := by
  unfold Validation.publication? at h
  split at h
  · exact Option.some.inj h ▸ ⟨rfl, rfl⟩
  · split at h
    · exact Option.some.inj h ▸ ⟨rfl, rfl⟩
    · exact absurd h (by simp)

end Pass

/-! ## The workspace -/

/-- A document is current if it is open at the version. -/
theorem Documents.isCurrent_iff {ds : Documents} {uri : String} {version : Int} :
    ds.isCurrent uri version = true ↔ ∃ d, ds.get? uri = some d ∧ d.version = version := by
  unfold Documents.isCurrent
  cases ds.get? uri <;> simp

/-- The pass of which an event is a step. -/
def WorkspaceEvent.pass? : WorkspaceEvent → Option Nat
  | .readGlobal n | .gotSettings n | .gotConfig n _ | .linted n _ | .checkCanceled n _
  | .checkCurrent n | .publish n | .finish n => some n
  | .opened .. | .changed .. | .closed _ | .settings _ | .begin .. | .ask .. => none

namespace Workspace

variable {w w' : Workspace} {e : WorkspaceEvent} {out : List PassOutput}

/-- The step of a pass that an event brings, with what the pass learns from the workspace. -/
inductive Brings (w : Workspace) (a : ActivePass) : WorkspaceEvent → Nat → PassEvent → Prop where
  | readGlobal (n : Nat) : Brings w a (.readGlobal n) n (.readGlobal w.session.global)
  | gotSettings (n c : Nat) (r : SettingsResult) (hc : a.call = some c)
      (hr : w.settings.returned? c = some r) : Brings w a (.gotSettings n) n (.gotSettings r)
  | gotConfig (n : Nat) (r : Except Failure Config) : Brings w a (.gotConfig n r) n (.gotConfig r)
  | linted (n : Nat) (r : Except Failure (Option (List Issue))) :
      Brings w a (.linted n r) n (.linted r)
  | checkCanceled (n : Nat) (canceled : Bool) :
      Brings w a (.checkCanceled n canceled) n (.checkCanceled canceled)
  | checkCurrent (n : Nat) : Brings w a (.checkCurrent n) n (.checkCurrent w.documents)
  | publish (n : Nat) : Brings w a (.publish n) n .publish
  | finish (n : Nat) : Brings w a (.finish n) n .finish

/-- What a step of the workspace can do. -/
inductive Effect (w : Workspace) : WorkspaceEvent → Workspace → List PassOutput → Prop where
  | opened (uri language : String) (version : Int) (text : Bytes) :
      Effect w (.opened uri language version text)
        { w with documents := w.documents.opened uri language version text } []
  | changed (uri : String) (text : Bytes) (version : Option Int) (d : Document)
      (hd : w.documents.get? uri = some d) :
      Effect w (.changed uri text version)
        { w with
          documents :=
            w.documents.put uri { d with text := text, version := version.getD d.version } } []
  | closed (uri : String) :
      Effect w (.closed uri) { w with documents := w.documents.closed uri } []
  | settings (e : SettingsEvent) (s : SettingsCalls) (hs : w.settings.step e = some s) :
      Effect w (.settings e) { w with settings := s } []
  | begin (uri : String) (trigger : Trigger) (d : Document) (hd : w.documents.get? uri = some d) :
      Effect w (.begin uri trigger) { w with passes := w.passes ++ [{ pass := ⟨d, .begun⟩ }] }
        [.log ⟨.debug, "validating " ++ Pass.naming d ++ " on " ++ trigger.name⟩,
          .progress (.begin "Linting document" none none)]
  | ask (n : Nat) (canceled : Bool) (a : ActivePass) (s : SettingsCalls)
      (ha : w.passes[n]? = some a) (hask : mayAsk a = true)
      (hs : w.settings.step (.begin a.pass.document.uri w.fetches canceled) = some s) :
      Effect w (.ask n canceled)
        { w with
          settings := s
          passes := w.passes.modify n fun a => { a with call := some w.settings.calls.length } } []
  | pass (e : WorkspaceEvent) (n : Nat) (pe : PassEvent) (a : ActivePass) (p : Pass)
      (out : List PassOutput) (ha : w.passes[n]? = some a) (he : Brings w a e n pe)
      (hp : Pass.Effect a.pass pe p out) :
      Effect w e { w with passes := w.passes.modify n fun a => { a with pass := p } } out

/-- A step of a pass in the workspace is one of the pass, with what it learns there. -/
theorem effect_of_stepPass {n : Nat} {pe : PassEvent}
    (he : ∀ a, w.passes[n]? = some a → Brings w a e n pe) (h : w.stepPass n pe = some (w', out)) :
    Effect w e w' out := by
  unfold stepPass at h
  split at h
  · exact absurd h (by simp)
  · rename_i a ha
    obtain ⟨⟨p, o⟩, hp, heq⟩ := Option.map_eq_some_iff.mp h
    obtain ⟨rfl, rfl⟩ := Prod.mk.inj heq
    exact .pass e n pe a p o ha (he a ha) (Pass.effect_of_step hp)

/-- Every step of the workspace has one of the effects. -/
theorem effect_of_step (h : w.step e = some (w', out)) : Effect w e w' out := by
  cases e with
  | opened uri language version text =>
    obtain ⟨rfl, rfl⟩ := Prod.mk.inj (Option.some.inj h)
    exact .opened uri language version text
  | changed uri text version =>
    simp only [step, Documents.changed] at h
    split at h
    · rename_i ds hds
      split at hds
      · exact absurd hds (by simp)
      · obtain ⟨rfl, rfl⟩ := Prod.mk.inj (Option.some.inj h)
        obtain rfl := Except.ok.inj hds
        exact .changed uri text version _ ‹_›
    · exact absurd h (by simp)
  | closed uri =>
    obtain ⟨rfl, rfl⟩ := Prod.mk.inj (Option.some.inj h)
    exact .closed uri
  | settings e =>
    obtain ⟨s, hs, heq⟩ := Option.map_eq_some_iff.mp h
    obtain ⟨rfl, rfl⟩ := Prod.mk.inj heq
    exact .settings e s hs
  | begin uri trigger =>
    simp only [step, Pass.begin] at h
    split at h
    · rename_i p o hp
      split at hp
      · exact absurd hp (by simp)
      · obtain ⟨rfl, rfl⟩ := Prod.mk.inj (Option.some.inj h)
        obtain ⟨rfl, rfl⟩ := Prod.mk.inj (Except.ok.inj hp)
        exact .begin uri trigger _ ‹_›
    · exact absurd h (by simp)
  | ask n canceled =>
    simp only [step] at h
    split at h
    · exact absurd h (by simp)
    · split at h
      · obtain ⟨s, hs, heq⟩ := Option.map_eq_some_iff.mp h
        obtain ⟨rfl, rfl⟩ := Prod.mk.inj heq
        exact .ask n canceled _ s ‹_› ‹_› hs
      · exact absurd h (by simp)
  | gotSettings n =>
    simp only [step] at h
    split at h
    · rename_i r hr
      obtain ⟨c, hc, hret⟩ := Option.bind_eq_some_iff.mp hr
      obtain ⟨a, ha, hac⟩ := Option.bind_eq_some_iff.mp hc
      refine effect_of_stepPass (fun a' ha' => ?_) h
      obtain rfl : a = a' := Option.some.inj (ha.symm.trans ha')
      exact .gotSettings n c r hac hret
    · exact absurd h (by simp)
  | readGlobal n => exact effect_of_stepPass (fun _ _ => .readGlobal n) h
  | gotConfig n r => exact effect_of_stepPass (fun _ _ => .gotConfig n r) h
  | linted n r => exact effect_of_stepPass (fun _ _ => .linted n r) h
  | checkCanceled n canceled => exact effect_of_stepPass (fun _ _ => .checkCanceled n canceled) h
  | checkCurrent n => exact effect_of_stepPass (fun _ _ => .checkCurrent n) h
  | publish n => exact effect_of_stepPass (fun _ _ => .publish n) h
  | finish n => exact effect_of_stepPass (fun _ _ => .finish n) h

/-- An event that brings a step is one of its pass. -/
theorem Brings.pass?_eq {n : Nat} {a : ActivePass} {pe : PassEvent} (h : Brings w a e n pe) :
    e.pass? = some n := by
  cases h <;> rfl

/-- A step of the workspace as one pass sees it: somebody else's, or a step of its own. -/
theorem Effect.pass_cases {n : Nat} {a : ActivePass} (h : Effect w e w' out)
    (ha : w.passes[n]? = some a) :
    (∃ a', w'.passes[n]? = some a' ∧ a'.pass = a.pass ∧ e.pass? ≠ some n) ∨
    (∃ pe p, w'.passes[n]? = some { a with pass := p } ∧ Brings w a e n pe ∧
      Pass.Effect a.pass pe p out) := by
  cases h with
  | opened _ _ _ _ => exact .inl ⟨a, ha, rfl, nofun⟩
  | changed _ _ _ _ _ => exact .inl ⟨a, ha, rfl, nofun⟩
  | closed _ => exact .inl ⟨a, ha, rfl, nofun⟩
  | settings _ _ _ => exact .inl ⟨a, ha, rfl, nofun⟩
  | begin _ _ _ _ =>
    refine .inl ⟨a, ?_, rfl, nofun⟩
    obtain ⟨hn, -⟩ := List.getElem?_eq_some_iff.mp ha
    rw [List.getElem?_append_left hn]
    exact ha
  -- asking for settings adds a call to a pass, and leaves the pass itself alone
  | ask m _ _ _ _ _ _ =>
    refine .inl ⟨if m = n then { a with call := some w.settings.calls.length } else a, ?_,
      ?_, nofun⟩
    · simp [List.getElem?_modify, ha]
    · split <;> rfl
  | pass _ m pe a' p _ ha' he hp =>
    by_cases hm : m = n
    · subst hm
      obtain rfl : a = a' := Option.some.inj (ha.symm.trans ha')
      refine .inr ⟨pe, p, ?_, he, hp⟩
      simp [ha]
    · refine .inl ⟨a, by simp [ha, hm], rfl, fun h => ?_⟩
      exact hm (Option.some.inj (he.pass?_eq.symm.trans h))

/-- A pass that is not new was there before. -/
theorem Effect.pass_before {n : Nat} {a' : ActivePass} (h : Effect w e w' out)
    (ha' : w'.passes[n]? = some a') (hφ : a'.pass.phase ≠ .begun) : ∃ a, w.passes[n]? = some a := by
  cases h with
  | opened _ _ _ _ => exact ⟨a', ha'⟩
  | changed _ _ _ _ _ => exact ⟨a', ha'⟩
  | closed _ => exact ⟨a', ha'⟩
  | settings _ _ _ => exact ⟨a', ha'⟩
  | begin _ _ _ _ =>
    rw [List.getElem?_append] at ha'
    split at ha'
    · exact ⟨a', ha'⟩
    · rw [List.mem_singleton.mp (List.mem_of_getElem? ha')] at hφ
      exact absurd rfl hφ
  | ask m _ _ _ _ _ _ =>
    rw [List.getElem?_modify] at ha'
    obtain ⟨a, ha, -⟩ := Option.map_eq_some_iff.mp ha'
    exact ⟨a, ha⟩
  | pass _ m _ _ _ _ _ _ _ =>
    rw [List.getElem?_modify] at ha'
    obtain ⟨a, ha, -⟩ := Option.map_eq_some_iff.mp ha'
    exact ⟨a, ha⟩

/-- A pass comes by its call for settings when it asks for them. -/
theorem Effect.call_cases {n : Nat} {a a' : ActivePass} (h : Effect w e w' out)
    (ha : w.passes[n]? = some a) (ha' : w'.passes[n]? = some a') :
    a'.call = a.call ∨ ∃ canceled, e = .ask n canceled ∧ a'.call.isSome = true := by
  have hsame : w.passes[n]? = some a' → a'.call = a.call := fun h =>
    congrArg ActivePass.call (Option.some.inj (h.symm.trans ha))
  cases h with
  | opened _ _ _ _ => exact .inl (hsame ha')
  | changed _ _ _ _ _ => exact .inl (hsame ha')
  | closed _ => exact .inl (hsame ha')
  | settings _ _ _ => exact .inl (hsame ha')
  | begin _ _ _ _ =>
    rw [List.getElem?_append_left (List.getElem?_eq_some_iff.mp ha).1] at ha'
    exact .inl (hsame ha')
  | ask m canceled _ _ _ _ _ =>
    rw [List.getElem?_modify, ha] at ha'
    obtain rfl := Option.some.inj ha'
    by_cases hm : m = n
    · exact .inr ⟨canceled, by rw [hm], by simp [hm]⟩
    · exact .inl (by simp [hm])
  | pass _ m _ _ _ _ _ _ _ =>
    rw [List.getElem?_modify, ha] at ha'
    obtain rfl := Option.some.inj ha'
    refine .inl ?_
    show (if m = n then _ else a).call = a.call
    split <;> rfl

/-- A pass that has its settings has asked for them. -/
theorem Effect.called {n : Nat} {a a' : ActivePass} (h : Effect w e w' out)
    (ha : w.passes[n]? = some a) (ha' : w'.passes[n]? = some a')
    (hcalled : a.pass.phase.lacksSettings = false → a.call.isSome = true)
    (hphase : a'.pass.phase.lacksSettings = false) : a'.call.isSome = true := by
  have hkept : a.call.isSome = true → a'.call.isSome = true := by
    intro hc
    rcases h.call_cases ha ha' with heq | ⟨_, _, hsome⟩
    · rw [heq]
      exact hc
    · exact hsome
  rcases h.pass_cases ha with ⟨b, hb, hsame, -⟩ | ⟨pe, p, hb, hbrings, hp⟩
  · obtain rfl := Option.some.inj (ha'.symm.trans hb)
    rw [hsame] at hphase
    exact hkept (hcalled hphase)
  · obtain rfl := Option.some.inj (ha'.symm.trans hb)
    -- it had them before, or gets them now from its call
    cases hlacks : a.pass.phase.lacksSettings with
    | false => exact hkept (hcalled hlacks)
    | true =>
      obtain ⟨r, rfl⟩ := hp.gotSettings_of_lacks hlacks hphase
      cases hbrings with
      | gotSettings _ c _ hc _ => exact hkept (by rw [hc]; rfl)

/-- A pass that takes a step is there. -/
theorem Effect.of_pass? {n : Nat} (h : Effect w e w' out) (he : e.pass? = some n) :
    ∃ a pe p, w.passes[n]? = some a ∧ Brings w a e n pe ∧ Pass.Effect a.pass pe p out := by
  cases h with
  | pass _ m pe a p _ ha hb hp =>
    obtain rfl : m = n := Option.some.inj (hb.pass?_eq.symm.trans he)
    exact ⟨a, pe, p, ha, hb, hp⟩
  | opened _ _ _ _ => exact absurd he nofun
  | changed _ _ _ _ _ => exact absurd he nofun
  | closed _ => exact absurd he nofun
  | settings _ _ _ => exact absurd he nofun
  | begin _ _ _ _ => exact absurd he nofun
  | ask _ _ _ _ _ _ _ => exact absurd he nofun

/-- No pass is ever taken out of the list. -/
theorem Effect.passes_length_le (h : Effect w e w' out) : w.passes.length ≤ w'.passes.length := by
  cases h <;> simp

end Workspace
end MarkupLint
