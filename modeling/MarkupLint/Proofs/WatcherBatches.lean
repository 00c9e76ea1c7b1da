/-
  The watcher neither loses changes nor makes them up.

  What a watcher has pending at any time is read off its past: the configuration files that have
  changed since it last handed changes on (`gathered`), and time runs just when there are any
  (`pending_of_course`). So what it hands on are these files (`changes_handed_on`).
-/
import Mathlib.Data.List.DropRight
import MarkupLint.Proofs.Course
import MarkupLint.Proofs.WatcherSteps

namespace MarkupLint

namespace Watcher

variable {w w' : Watcher} {e : WatchEvent} {out : Option (List Bytes)} {path : Bytes}

/-- A watcher takes every event, with the files as they are at the time. -/
def next (w : Watcher) (e : FileSystem × WatchEvent) : Option Watcher := some (w.step e.1 e.2).1

/-- What is handed on at a moment. -/
def batch? (m : Moment Watcher (FileSystem × WatchEvent)) : Option (List Bytes) :=
  (m.state.step m.event.1 m.event.2).2.1

/-- The configuration files that have changed since changes were last handed on, in the order of
    their first changes. -/
def gathered (ms : List (Moment Watcher (FileSystem × WatchEvent))) : List Bytes :=
  ((ms.rtakeWhile fun m => (batch? m).isNone).filterMap fun m => m.event.2.configChange?).eraseDups

variable {ms : List (Moment Watcher (FileSystem × WatchEvent))}
  {m : Moment Watcher (FileSystem × WatchEvent)}

/-- What was handed on is no longer gathered. -/
theorem gathered_of_batch {b : List Bytes} (h : batch? m = some b) : gathered (ms ++ [m]) = [] := by
  rw [gathered, List.rtakeWhile_concat_neg _ _ _ (by simp [h])]
  rfl

/-- A change is gathered once. -/
theorem gathered_of_change (h : batch? m = none) (hchange : m.event.2.configChange? = some path) :
    gathered (ms ++ [m]) = if path ∈ gathered ms then gathered ms else gathered ms ++ [path] := by
  rw [gathered, List.rtakeWhile_concat_pos _ _ _ (by simp [h]), List.filterMap_append]
  simp only [List.filterMap_cons, hchange, List.filterMap_nil]
  exact eraseDups_snoc _ _

/-- Events that are no changes of configuration files gather nothing. -/
theorem gathered_of_none (h : batch? m = none) (hchange : m.event.2.configChange? = none) :
    gathered (ms ++ [m]) = gathered ms := by
  rw [gathered, List.rtakeWhile_concat_pos _ _ _ (by simp [h]), List.filterMap_append]
  simp [hchange, gathered]

/-- What an event leaves pending is what has been gathered with it, and time runs just when there is
    something. -/
theorem Effect.gathered (h : Effect w w' e out) (he : m.event.2 = e) (hout : batch? m = out)
    (hpending : w.pending = gathered ms) (harmed : w.armed = true ↔ w.pending ≠ []) :
    w'.pending = Watcher.gathered (ms ++ [m]) ∧ (w'.armed = true ↔ w'.pending ≠ []) := by
  -- a change is noted, or nothing happens, or all is handed on
  cases h with
  | @noted e path hchange hnoted hon =>
    have hmem : path ∈ w'.pending := (Effect.noted hchange hnoted hon).pending_of_change hchange
    rw [gathered_of_change hout (he ▸ hchange), ← hpending]
    exact ⟨hnoted, iff_of_true hon (List.ne_nil_of_mem hmem)⟩
  | kept hchange hexpired hkept hstill =>
    rw [gathered_of_none hout (he ▸ hchange), ← hpending, hkept, hstill]
    exact ⟨rfl, harmed⟩
  | handedOn hon hnil hoff =>
    rw [gathered_of_batch hout, hnil, hoff]
    simp

/-- **What is pending is what was gathered**, and time runs just when there is something. -/
theorem pending_of_course {fs : FileSystem} {root : Bytes} (h : Course next (ofRoot fs root) ms w) :
    w.pending = gathered ms ∧ (w.armed = true ↔ w.pending ≠ []) := by
  induction h with
  | nil => exact ⟨rfl, by simp [ofRoot]⟩
  | @snoc ms w v e h hstep ih =>
    obtain rfl : (w.step e.1 e.2).1 = v := Option.some.inj hstep
    exact (effect_of_step e.1 w e.2).gathered rfl rfl ih.1 ih.2

/-- Changes are handed on at this time. -/
def HandsOnAt (ms : List (Moment Watcher (FileSystem × WatchEvent))) (i : Nat)
    (batch : List Bytes) : Prop :=
  ∃ m, ms[i]? = some m ∧ batch? m = some batch

/-- A configuration file changes at this time. -/
def ChangesAt (ms : List (Moment Watcher (FileSystem × WatchEvent))) (i : Nat)
    (path : Bytes) : Prop :=
  ∃ m c, ms[i]? = some m ∧ m.event.2 = .changed c path ∧ affectsConfig path = true

/-- The time that was set runs out. -/
def ExpiresAt (ms : List (Moment Watcher (FileSystem × WatchEvent))) (i : Nat) : Prop :=
  ∃ m, ms[i]? = some m ∧ m.event.2 = .expired

/-- Changes are handed on when time runs out and there are any. -/
theorem handsOnAt_iff {fs : FileSystem} {root : Bytes} (h : Course next (ofRoot fs root) ms w)
    {i : Nat} {batch : List Bytes} :
    HandsOnAt ms i batch ↔ ExpiresAt ms i ∧ batch ≠ [] ∧ batch = gathered (ms.take i) := by
  have hout : ∀ m, ms[i]? = some m → (batch? m = some batch ↔
      m.event.2 = .expired ∧ batch ≠ [] ∧ batch = gathered (ms.take i)) := by
    intro m hm
    -- what is pending at that moment is what was gathered up to it
    obtain ⟨hpending, harmed⟩ := pending_of_course (h.take hm)
    rw [batch?, (effect_of_step m.event.1 m.state m.event.2).out_eq, harmed, hpending]
    constructor
    · rintro ⟨he, hne, rfl⟩
      exact ⟨he, hne, rfl⟩
    · rintro ⟨he, hne, rfl⟩
      exact ⟨he, hne, rfl⟩
  constructor
  · rintro ⟨m, hm, hbatch⟩
    obtain ⟨he, hrest⟩ := (hout m hm).mp hbatch
    exact ⟨⟨m, hm, he⟩, hrest⟩
  · rintro ⟨⟨m, hm, he⟩, hrest⟩
    exact ⟨m, hm, (hout m hm).mpr ⟨he, hrest⟩⟩

/-- No change is lost: it is pending until it is handed on. -/
theorem pending_or_handedOn_of_course {fs : FileSystem} {root : Bytes}
    (h : Course next (ofRoot fs root) ms w) {i : Nat} (hchange : ChangesAt ms i path) :
    path ∈ w.pending ∨ ∃ k batch, i < k ∧ HandsOnAt ms k batch ∧ path ∈ batch := by
  induction h with
  | nil =>
    obtain ⟨m, c, hm, -⟩ := hchange
    exact absurd hm (by simp)
  | @snoc ms w v e h hstep ih =>
    obtain rfl : (w.step e.1 e.2).1 = v := Option.some.inj hstep
    have heffect := effect_of_step e.1 w e.2
    obtain ⟨m, c, hm, he, hpath⟩ := hchange
    rcases getElem?_snoc_cases hm with hold | ⟨rfl, rfl⟩
    · rcases ih ⟨m, c, hold, he, hpath⟩ with hpending | ⟨k, batch, hk, ⟨n, hn, hbatch⟩, hmem⟩
      · -- it was pending, and is handed on now if it is no longer
        rcases heffect.pending_or_handedOn hpending with hstill | ⟨batch, hbatch, hmem⟩
        · exact .inl hstill
        · exact .inr ⟨ms.length, batch, lt_length_of_getElem? hold,
            ⟨_, List.getElem?_concat_length, hbatch⟩, hmem⟩
      · exact .inr ⟨k, batch, hk, ⟨n, getElem?_snoc_of_some _ hn, hbatch⟩, hmem⟩
    · have hnoted : e.2.configChange? = some path := by
        rw [show e.2 = .changed c path from he]
        simp [WatchEvent.configChange?, hpath]
      exact .inl (heffect.pending_of_change hnoted)

/-- **Changes are neither lost nor made up.** Take a watcher that begins, and any events: changes of
    files, errors, and the running out of time, in any order, whatever becomes of the files
    meanwhile. Time runs just when changes are pending, and no change is pending twice. Changes are
    handed on when time runs out and there are some, and then they are the configuration files that
    have changed since this was last done, each once, in the order of their first changes. And every
    change is pending, or has been handed on after it came. -/
theorem changes_handed_on {fs : FileSystem} {root : Bytes} (h : Course next (ofRoot fs root) ms w) :
    (w.armed = true ↔ w.pending ≠ []) ∧ w.pending.Nodup ∧
    (∀ i batch, HandsOnAt ms i batch ↔ ExpiresAt ms i ∧ batch ≠ [] ∧ batch = gathered (ms.take i)) ∧
    (∀ i batch, HandsOnAt ms i batch → batch.Nodup) ∧
    ∀ i path, ChangesAt ms i path →
      path ∈ w.pending ∨ ∃ k batch, i < k ∧ HandsOnAt ms k batch ∧ path ∈ batch := by
  obtain ⟨hpending, harmed⟩ := pending_of_course h
  refine ⟨harmed, ?_, fun i batch => handsOnAt_iff h, fun i batch hbatch => ?_,
    fun i path hchange => pending_or_handedOn_of_course h hchange⟩
  · rw [hpending]
    exact nodup_eraseDups _
  · obtain ⟨-, -, rfl⟩ := (handsOnAt_iff h).mp hbatch
    exact nodup_eraseDups _

/-- Two configuration files change, one of them twice, and a document in between; when they have
    been handed on, one of them changes again. -/
def editing : List (FileSystem × WatchEvent) :=
  [(.empty, .changed { write := true } (Bytes.ofString "/w/package.json")),
    (.empty, .changed { write := true } (Bytes.ofString "/w/a.html")),
    (.empty, .changed { create := true } (Bytes.ofString "/w/.htmllintrc")),
    (.empty, .failed "queue overflow"),
    (.empty, .changed { write := true } (Bytes.ofString "/w/package.json")),
    (.empty, .expired),
    (.empty, .changed { remove := true } (Bytes.ofString "/w/package.json"))]

/-- The two files are handed on together, in the order of their first changes. -/
theorem changes_handed_on_editing :
    ∃ ms w, Course next (ofRoot .empty (Bytes.ofString "/w")) ms w ∧ ms.map Moment.event = editing ∧
      (w.armed = true ↔ w.pending ≠ []) ∧ w.pending = [Bytes.ofString "/w/package.json"] ∧
      HandsOnAt ms 5 [Bytes.ofString "/w/package.json", Bytes.ofString "/w/.htmllintrc"] := by
  have hcourse := Course.of_events editing
    (rfl : editing.foldlM next (ofRoot .empty (Bytes.ofString "/w")) = some _)
  obtain ⟨harmed, -, hbatches, -, -⟩ := changes_handed_on hcourse
  exact ⟨_, _, hcourse, rfl, harmed, rfl, (hbatches 5 _).mpr ⟨⟨_, rfl, rfl⟩, by decide, rfl⟩⟩

end Watcher
end MarkupLint
