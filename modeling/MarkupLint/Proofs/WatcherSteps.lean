/-
  What an event does to the watcher.

  A change of a configuration file is noted, once, and sets time running. When time runs out what
  has been noted is handed on, and nothing else changes what is pending. `effect_of_step` says this
  once, event by event; the rest of the module reads off it what becomes of one path.
-/
import MarkupLint.Watcher

namespace MarkupLint

/-- The configuration file that changes with an event. -/
def WatchEvent.configChange? : WatchEvent → Option Bytes
  | .changed _ path => if affectsConfig path then some path else none
  | .failed _ => none
  | .expired => none

/-- A configuration file changes with an event of its own path. -/
theorem WatchEvent.configChange?_changed {c : FileChange} {p q : Bytes} :
    (changed c p).configChange? = some q ↔ affectsConfig q = true ∧ p = q := by
  rw [configChange?]
  split
  · rename_i hp
    exact ⟨fun h => Option.some.inj h ▸ ⟨hp, rfl⟩, fun h => congrArg some h.2⟩
  · rename_i hp
    exact ⟨nofun, fun h => absurd (h.2 ▸ h.1) hp⟩

namespace Watcher

variable {w w' : Watcher} {e : WatchEvent} {out : Option (List Bytes)} {path : Bytes}

/-- What an event does to a watcher, and what is handed on with it. -/
inductive Effect (w w' : Watcher) : WatchEvent → Option (List Bytes) → Prop where
  | noted {e : WatchEvent} {path : Bytes} : e.configChange? = some path →
      w'.pending = (if path ∈ w.pending then w.pending else w.pending ++ [path]) →
      w'.armed = true → Effect w w' e none
  | kept {e : WatchEvent} : e.configChange? = none → (e = .expired → w.armed = false) →
      w'.pending = w.pending → w'.armed = w.armed → Effect w w' e none
  | handedOn : w.armed = true → w'.pending = [] → w'.armed = false →
      Effect w w' .expired (some w.pending)

/-- New directories to watch leave what is pending alone. -/
theorem pending_extend (fs : FileSystem) (w : Watcher) (c : FileChange) (p : Bytes) :
    (w.extend fs c p).pending = w.pending ∧ (w.extend fs c p).armed = w.armed := by
  unfold extend
  split <;> exact ⟨rfl, rfl⟩

/-- Every event has one of the three effects. -/
theorem effect_of_step (fs : FileSystem) (w : Watcher) (e : WatchEvent) :
    Effect w (w.step fs e).1 e (w.step fs e).2.1 := by
  cases e with
  | changed c path =>
    -- the directories come first, whatever the file is
    obtain ⟨hpending, harmed⟩ := pending_extend fs w c path
    by_cases hpath : affectsConfig path = true
    · have hstep : w.step fs (.changed c path) = ((w.extend fs c path).note path, none,
          [⟨.debug, "config file event: " ++ c.line path⟩]) := by simp [step, hpath]
      rw [hstep]
      refine .noted (WatchEvent.configChange?_changed.mpr ⟨hpath, rfl⟩) ?_ rfl
      simp [note, hpending]
    · have hstep : w.step fs (.changed c path) = (w.extend fs c path, none, []) := by
        simp [step, hpath]
      rw [hstep]
      exact .kept (by simp [WatchEvent.configChange?, hpath]) (by simp) hpending harmed
  | failed text => exact .kept rfl (by simp) rfl rfl
  | expired =>
    by_cases harmed : w.armed = true
    · have hstep : w.step fs .expired =
          ({ w with pending := [], armed := false }, some w.pending, []) := by simp [step, harmed]
      rw [hstep]
      exact .handedOn harmed rfl rfl
    · -- time that was never set runs out: nothing comes of it
      have hstep : w.step fs .expired = (w, none, []) := by simp [step, harmed]
      rw [hstep]
      exact .kept rfl (fun _ => by simpa using harmed) rfl rfl

namespace Effect

/-- As long as nothing is handed on, changes add up. -/
theorem mem_pending_iff (h : Effect w w' e none) :
    path ∈ w'.pending ↔ e.configChange? = some path ∨ path ∈ w.pending := by
  cases h with
  | @noted e p hchange hpending harmed =>
    rw [hpending, hchange, Option.some.injEq]
    split
    · rename_i hp
      exact ⟨.inr, fun h => h.elim (fun heq => heq ▸ hp) id⟩
    · rw [List.mem_append, List.mem_singleton, or_comm, eq_comm]
  | kept hchange hexpired hpending harmed => simp [hpending, hchange]

/-- As long as nothing is handed on, time runs from the first change on. -/
theorem armed_iff (h : Effect w w' e none) :
    w'.armed = true ↔ (∃ path, e.configChange? = some path) ∨ w.armed = true := by
  cases h with
  | noted hchange hpending harmed => exact iff_of_true harmed (.inl ⟨_, hchange⟩)
  | kept hchange hexpired hpending harmed => simp [harmed, hchange]

/-- A change that is pending stays so or is handed on. -/
theorem pending_or_handedOn (h : Effect w w' e out) (hpath : path ∈ w.pending) :
    path ∈ w'.pending ∨ ∃ batch, out = some batch ∧ path ∈ batch := by
  cases out with
  | none => exact .inl (h.mem_pending_iff.mpr (.inr hpath))
  | some batch =>
    cases h with
    | handedOn harmed hpending hoff => exact .inr ⟨w.pending, rfl, hpath⟩

/-- A change is noted when it comes. -/
theorem pending_of_change (h : Effect w w' e out) (hchange : e.configChange? = some path) :
    path ∈ w'.pending := by
  cases out with
  | none => exact h.mem_pending_iff.mpr (.inl hchange)
  | some batch =>
    cases h with
    | handedOn => exact absurd hchange (by simp [WatchEvent.configChange?])

/-- What is pending is handed on when time runs out that was set. -/
theorem out_eq (h : Effect w w' e out) {batch : List Bytes} :
    out = some batch ↔ e = .expired ∧ w.armed = true ∧ batch = w.pending := by
  cases h with
  | noted hchange =>
    have hne : e ≠ .expired := by
      rintro rfl
      exact absurd hchange (by simp [WatchEvent.configChange?])
    simp [hne]
  | kept hchange hexpired =>
    constructor
    · exact fun h => absurd h (by simp)
    · rintro ⟨he, harmed, -⟩
      exact absurd harmed (by simp [hexpired he])
  | handedOn harmed => simp [harmed, eq_comm]

end Effect

/-- Nothing is handed on with a change. -/
theorem effect_of_change (fs : FileSystem) (w : Watcher) (c : FileChange) (path : Bytes) :
    Effect w (w.step fs (.changed c path)).1 (.changed c path) none := by
  have heffect := effect_of_step fs w (.changed c path)
  have hnone : (w.step fs (.changed c path)).2.1 = none :=
    Option.eq_none_iff_forall_ne_some.mpr fun batch hbatch =>
      absurd (heffect.out_eq.mp hbatch).1 (by simp)
  rwa [hnone] at heffect

end Watcher
end MarkupLint
