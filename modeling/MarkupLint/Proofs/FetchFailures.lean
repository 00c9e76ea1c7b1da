/-
  A failure to get settings from the client stays with the call that asked.

  It does not stay in the cache: `Orderly` says that a slot which is open and in the cache holds
  settings. It does not cost another slot its place: what leaves the cache without having become
  invalid is the slot of the call that failed (`leaves_cache_cases`), which made this slot itself
  and asked the client after that (`Recorded`). And it is not handed on when it is a cancellation: a
  call that waits for the slot of another one looks its document up again (`wake_starts_over`),
  unless it is cancelled itself.
-/
import MarkupLint.Proofs.SettingsFreshness
import MarkupLint.Proofs.SettingsOwners

namespace MarkupLint
namespace SettingsCalls

variable {ms : List Instant} {p p' : SettingsCalls} {e : SettingsEvent} {x : Instant} {s' : Session}
  {n slot : Nat} {c : SettingsCall} {φ : CallPhase}

/-! ## Who has asked for what -/

/-- A call makes a slot at the time `j`: there is none for its document. -/
def MakesAt (ms : List Instant) (n slot j : Nat) : Prop :=
  ∃ p c, ms[j]? = some ⟨p, .lookUp n⟩ ∧ p.calls[n]? = some c ∧
    p.session.cache.get? c.uri = none ∧ p.session.slots.length = slot

/-- A call that has made a slot starts at the time `j` to ask the client for what belongs into
    it. -/
def FetchesAt (ms : List Instant) (n slot j : Nat) : Prop :=
  ∃ p, ms[j]? = some ⟨p, .startFetch n⟩ ∧ p.phase? n = some (.owning slot)

/-- The call has made a slot and has then asked the client itself. -/
def RanFetch (ms : List Instant) (n slot : Nat) : Prop :=
  ∃ i j, MakesAt ms n slot i ∧ FetchesAt ms n slot j ∧ i < j

/-- The call has made a slot and has then asked the client itself, and the answer was a failure. -/
def FetchFailed (ms : List Instant) (n slot : Nat) : Prop :=
  ∃ i j k f, MakesAt ms n slot i ∧ FetchesAt ms n slot j ∧ GetsAt ms n (.error f) k ∧ i < j ∧ j < k

theorem MakesAt.snoc {j : Nat} (x : Instant) (h : MakesAt ms n slot j) :
    MakesAt (ms ++ [x]) n slot j := by
  obtain ⟨p, c, hj, hc⟩ := h
  exact ⟨p, c, getElem?_snoc_of_some x hj, hc⟩

theorem MakesAt.lt_length {j : Nat} (h : MakesAt ms n slot j) : j < ms.length := by
  obtain ⟨p, c, hj, -⟩ := h
  exact lt_length_of_getElem? hj

theorem FetchesAt.snoc {j : Nat} (x : Instant) (h : FetchesAt ms n slot j) :
    FetchesAt (ms ++ [x]) n slot j := by
  obtain ⟨p, hj, hφ⟩ := h
  exact ⟨p, getElem?_snoc_of_some x hj, hφ⟩

theorem FetchesAt.lt_length {j : Nat} (h : FetchesAt ms n slot j) : j < ms.length := by
  obtain ⟨p, hj, -⟩ := h
  exact lt_length_of_getElem? hj

/-- What a call has done stays done, and so for the failures it has met. -/
theorem RanFetch.snoc (x : Instant) (h : RanFetch ms n slot) : RanFetch (ms ++ [x]) n slot := by
  obtain ⟨i, j, hi, hj, hlt⟩ := h
  exact ⟨i, j, hi.snoc x, hj.snoc x, hlt⟩

theorem FetchFailed.snoc (x : Instant) (h : FetchFailed ms n slot) :
    FetchFailed (ms ++ [x]) n slot := by
  obtain ⟨i, j, k, f, hi, hj, hk, hij, hjk⟩ := h
  exact ⟨i, j, k, f, hi.snoc x, hj.snoc x, hk.snoc x, hij, hjk⟩

/-- The slot for which a call has asked the client. -/
def fetched? : CallPhase → Option Nat
  | .fetching slot | .failed slot | .closing slot | .waiting slot true => some slot
  | .global | .looking | .owning _ | .waiting _ false | .returned _ => none

/-- What a call has done can be seen from where it stands. -/
structure Recorded (ms : List Instant) (n : Nat) (c : SettingsCall) : Prop where
  made : ∀ slot, c.phase = .owning slot → ∃ j, MakesAt ms n slot j
  ran : ∀ slot, fetched? c.phase = some slot → RanFetch ms n slot
  failed : ∀ slot, c.phase = .failed slot → FetchFailed ms n slot

/-- The same of all calls. -/
def AllRecorded (ms : List Instant) (p : SettingsCalls) : Prop :=
  ∀ (n : Nat) (c : SettingsCall), p.calls[n]? = some c → Recorded ms n c

/-- The record of a call stays true as the course goes on. -/
theorem Recorded.snoc (x : Instant) (h : Recorded ms n c) : Recorded (ms ++ [x]) n c where
  made slot hφ := by
    obtain ⟨j, hj⟩ := h.made slot hφ
    exact ⟨j, hj.snoc x⟩
  ran slot hφ := (h.ran slot hφ).snoc x
  failed slot hφ := (h.failed slot hφ).snoc x

/-- A call that has no slot, or waits for the slot of another one, has done nothing that counts. -/
theorem recorded_of_none (howning : ∀ slot, c.phase ≠ .owning slot)
    (hfetched : fetched? c.phase = none) : Recorded ms n c where
  made slot hφ := absurd hφ (howning slot)
  ran slot hφ := absurd (hfetched.symm.trans hφ) (by simp)
  failed slot hφ := by
    rw [hφ] at hfetched
    exact absurd hfetched (by simp [fetched?])

/-- A step of one call has to be accounted for in its own record only. -/
theorem AllRecorded.of_move (h : AllRecorded ms p) (hc : p.calls[n]? = some c)
    (hcall : Recorded (ms ++ [x]) n { c with phase := φ }) :
    AllRecorded (ms ++ [x]) (p.move n s' φ) := by
  intro k d hd
  by_cases hk : n = k
  · subst hk
    rw [getElem?_move_self s' φ hc] at hd
    exact Option.some.inj hd ▸ hcall
  · rw [getElem?_move_of_ne s' φ hk] at hd
    exact (h k d hd).snoc x

/-- **What one step preserves**: what calls have done can be seen from where they stand. -/
theorem AllRecorded.step (h : AllRecorded ms p) (hstep : p.step e = some p') :
    AllRecorded (ms ++ [⟨p, e⟩]) p' := by
  cases effect_of_step hstep with
  | miss n c hc hφ hmiss =>
    refine h.of_move hc ⟨?_, by simp [fetched?], by simp⟩
    intro k hk
    obtain rfl : p.session.slots.length = k := CallPhase.owning.inj hk
    exact ⟨ms.length, p, c, List.getElem?_concat_length, hc, hmiss, rfl⟩
  | startFetch n c slot hc hφ =>
    refine h.of_move hc ⟨by simp, ?_, by simp⟩
    intro k hk
    obtain rfl : slot = k := Option.some.inj hk
    obtain ⟨i, hi⟩ := (h n c hc).made slot hφ
    have hnow : FetchesAt (ms ++ [⟨p, .startFetch n⟩]) n slot ms.length :=
      ⟨p, List.getElem?_concat_length, by rw [phase?, hc, Option.map_some, hφ]⟩
    exact ⟨i, ms.length, hi.snoc _, hnow, hi.lt_length⟩
  -- the answer is recorded as a failure or not, the request itself in either case
  | endFetch n r c slot hc hφ =>
    obtain ⟨i, j, hi, hj, hij⟩ := (h n c hc).ran slot (by rw [hφ]; rfl)
    have hran : RanFetch (ms ++ [⟨p, .endFetch n r⟩]) n slot := ⟨i, j, hi.snoc _, hj.snoc _, hij⟩
    cases r with
    | ok v =>
      refine h.of_move hc ⟨by simp [Except.isOk, Except.toBool],
        ?_, by simp [Except.isOk, Except.toBool]⟩
      intro k hk
      obtain rfl : slot = k := Option.some.inj hk
      exact hran
    | error f =>
      refine h.of_move hc ⟨by simp [Except.isOk, Except.toBool], ?_, ?_⟩
      · intro k hk
        obtain rfl : slot = k := Option.some.inj hk
        exact hran
      · intro k hk
        obtain rfl : slot = k := CallPhase.failed.inj hk
        have hnow : GetsAt (ms ++ [⟨p, .endFetch n (.error f)⟩]) n (.error f) ms.length :=
          ⟨p, List.getElem?_concat_length⟩
        exact ⟨i, j, ms.length, f, hi.snoc _, hj.snoc _, hnow, hij, hj.lt_length⟩
  | discard n c slot hc hφ =>
    refine h.of_move hc ⟨by simp, ?_, by simp⟩
    intro k hk
    exact ((h n c hc).ran k (by rw [hφ]; exact hk)).snoc _
  | complete n c slot hc hφ =>
    refine h.of_move hc ⟨by simp, ?_, by simp⟩
    intro k hk
    exact ((h n c hc).ran k (by rw [hφ]; exact hk)).snoc _
  | takeGlobal n c hc hφ => exact h.of_move hc (recorded_of_none (by simp) rfl)
  | hit n c slot hc hφ hhit => exact h.of_move hc (recorded_of_none (by simp) rfl)
  | take n c slot own r hc hφ hr => exact h.of_move hc (recorded_of_none (by simp) rfl)
  | retry n c slot f hc hφ hr hcanceled hf => exact h.of_move hc (recorded_of_none (by simp) rfl)
  | giveUp n c slot own hc hφ hcanceled => exact h.of_move hc (recorded_of_none (by simp) rfl)
  -- a call that has just begun has no record yet
  | begin uri fetches canceled =>
    intro k d hd
    rw [List.getElem?_append] at hd
    split at hd
    · exact (h k d hd).snoc _
    · have hnew := List.mem_of_getElem? hd
      rw [List.mem_singleton] at hnew
      subst hnew
      exact recorded_of_none (by intro slot; split <;> simp) (by split <;> rfl)
  | cancel n =>
    intro k d hd
    rw [List.getElem?_modify] at hd
    obtain ⟨c, hc, rfl⟩ := Option.map_eq_some_iff.mp hd
    have hold := (h k c hc).snoc ⟨p, .cancel n⟩
    split
    · exact ⟨hold.made, hold.ran, hold.failed⟩
    · exact hold
  | forget uri => exact fun k d hd => (h k d hd).snoc _
  | reset settings => exact fun k d hd => (h k d hd).snoc _
  | announce caps => exact fun k d hd => (h k d hd).snoc _

/-- At every point of every course, calls stand where their past has led them. -/
theorem allRecorded_of_course (h : Course step {} ms p) : AllRecorded ms p := by
  induction h with
  | nil => exact fun n c hc => absurd hc (by simp)
  | snoc _ hstep ih => exact ih.step hstep

/-! ## What leaves the cache -/

/-- A slot leaves the cache when the settings of its document become invalid, or when the call that
    works on it has had a failure for an answer. -/
theorem leaves_cache_cases {u : String} {k : Nat} (hstep : p.step e = some p')
    (hu : p.session.cache.get? u = some k) (hgone : p'.session.cache.get? u ≠ some k) :
    e.Invalidates u ∨ ∃ n c, e = .discard n ∧ p.calls[n]? = some c ∧ c.phase = .failed k := by
  cases effect_of_step hstep with
  | discard n c slot hc hφ =>
    refine .inr ⟨n, c, rfl, hc, ?_⟩
    change (p.session.discard c.uri slot).cache.get? u ≠ some k at hgone
    unfold Session.discard at hgone
    -- the slot is thrown out only if the cache still has it for the document
    split at hgone
    · by_cases huri : u = c.uri
      · -- the document has the slot of the call in the cache, so it is this slot
        subst huri
        obtain rfl : slot = k := Option.some.inj (‹p.session.cache.get? c.uri = _›.symm.trans hu)
        exact hφ
      · rw [Table.get?_erase_of_ne _ huri] at hgone
        exact absurd hu hgone
    · exact absurd hu hgone
  -- a new slot takes no other one's place, as there was none for its document
  | miss n c hc hφ hmiss =>
    have hne : u ≠ c.uri := by
      rintro rfl
      exact absurd (hmiss.symm.trans hu) (by simp)
    change (p.session.withSlot c.uri).cache.get? u ≠ some k at hgone
    rw [Session.withSlot, Table.get?_put_of_ne _ _ hne] at hgone
    exact absurd hu hgone
  | forget uri =>
    by_cases huri : u = uri
    · exact .inl huri.symm
    · rw [Session.forget, Table.get?_erase_of_ne _ huri] at hgone
      exact absurd hu hgone
  | reset settings => exact .inl trivial
  | announce caps =>
    unfold Session.announce at hgone
    split at hgone <;> exact absurd hu hgone
  | begin uri fetches canceled => exact absurd hu hgone
  | takeGlobal n c hc hφ => exact absurd hu hgone
  | hit n c slot hc hφ hhit => exact absurd hu hgone
  | startFetch n c slot hc hφ => exact absurd hu hgone
  | endFetch n r c slot hc hφ => exact absurd hu hgone
  | complete n c slot hc hφ => exact absurd hu hgone
  | take n c slot own r hc hφ hr => exact absurd hu hgone
  | retry n c slot f hc hφ hr hcanceled hf => exact absurd hu hgone
  | giveUp n c slot own hc hφ hcanceled => exact absurd hu hgone
  | cancel n => exact absurd hu hgone

/-! ## How a waiting call goes on -/

theorem phase?_move_of_ne {m : Nat} (h : m ≠ n) : (p.move m s' φ).phase? n = p.phase? n := by
  rw [phase?, phase?, getElem?_move_of_ne s' φ h]

/-- A waiting call stays where it is, unless it sees its slot open or sees that it is cancelled. -/
theorem waits_or_goes_on {own : Bool} (hstep : p.step e = some p') (hc : p.calls[n]? = some c)
    (hφ : c.phase = .waiting slot own) :
    p'.phase? n = some (.waiting slot own) ∨ e = .wake n ∨ (e = .giveUp n ∧ c.canceled = true) := by
  have hwaits : p.phase? n = some (.waiting slot own) := by rw [phase?, hc, Option.map_some, hφ]
  -- steps that only calls in another phase can take
  have other : ∀ {m : Nat} {d : SettingsCall} {s' : Session} {φ : CallPhase}, p.calls[m]? = some d →
      d.phase ≠ .waiting slot own → (p.move m s' φ).phase? n = some (.waiting slot own) := by
    intro m d s' φ hd hne
    have hmn : m ≠ n := by
      rintro rfl
      obtain rfl : c = d := Option.some.inj (hc.symm.trans hd)
      exact hne hφ
    rw [phase?_move_of_ne hmn]
    exact hwaits
  cases effect_of_step hstep with
  | begin uri fetches canceled =>
    refine .inl ?_
    have hn := (List.getElem?_eq_some_iff.mp hc).1
    rw [phase?, List.getElem?_append_left hn]
    exact hwaits
  | takeGlobal m d hd hdφ => exact .inl (other hd (by simp [hdφ]))
  | miss m d hd hdφ hmiss => exact .inl (other hd (by simp [hdφ]))
  | hit m d k hd hdφ hhit => exact .inl (other hd (by simp [hdφ]))
  | startFetch m d k hd hdφ => exact .inl (other hd (by simp [hdφ]))
  | endFetch m r d k hd hdφ => exact .inl (other hd (by simp [hdφ]))
  | discard m d k hd hdφ => exact .inl (other hd (by simp [hdφ]))
  | complete m d k hd hdφ => exact .inl (other hd (by simp [hdφ]))
  -- steps of waiting calls: the call's own, or that of another one
  | take m d k o r hd hdφ hr =>
    by_cases hmn : m = n
    · exact .inr (.inl (by rw [hmn]))
    · exact .inl (by rw [phase?_move_of_ne hmn]; exact hwaits)
  | retry m d k f hd hdφ hr hcanceled hf =>
    by_cases hmn : m = n
    · exact .inr (.inl (by rw [hmn]))
    · exact .inl (by rw [phase?_move_of_ne hmn]; exact hwaits)
  | giveUp m d k o hd hdφ hcanceled =>
    by_cases hmn : m = n
    · subst hmn
      obtain rfl : c = d := Option.some.inj (hc.symm.trans hd)
      exact .inr (.inr ⟨rfl, hcanceled⟩)
    · exact .inl (by rw [phase?_move_of_ne hmn]; exact hwaits)
  | cancel m =>
    refine .inl ?_
    rw [phase?, List.getElem?_modify, hc]
    by_cases hmn : m = n <;> simp [hmn, hφ]
  | forget uri => exact .inl hwaits
  | reset settings => exact .inl hwaits
  | announce caps => exact .inl hwaits

/-- A call that sees another one's slot open with a cancellation in it, and is not cancelled itself,
    looks its document up again. -/
theorem wake_starts_over {f : Failure} (hc : p.calls[n]? = some c)
    (hφ : c.phase = .waiting slot false) (hcanceled : c.canceled = false)
    (hr : p.session.result? slot = some (.error f)) (hf : f.isCancellation = true) :
    p.step (.wake n) = some (p.move n p.session .looking) := by
  obtain ⟨uri, canceled, phase⟩ := c
  subst hφ hcanceled
  simp [step, hc, afterWait, hr, hf]

/-! ## Isolation -/

/-- **Failures stay isolated.** Let calls for settings, their cancellations, closings of documents
    and changes of the settings for all documents interleave in any way. At every point:
    * a slot in the cache that is open holds settings;
    * a slot that leaves the cache in the next step has become invalid, or it is the very slot that
      a call has made, has asked the client for, and has got a failure for;
    * a call that waits for a slot which is open with a cancellation in it, has not asked the client
      itself and is not cancelled, can go on, and the only way on is to look its document up
      again. -/
theorem failures_isolated (h : Course step {} ms p) :
    (∀ u slot y, p.session.cache.get? u = some slot → p.session.slots[slot]? = some y →
      y.isDone = true → ∃ v, y.result = some (.ok v)) ∧
    (∀ e p' u slot, p.step e = some p' → p.session.cache.get? u = some slot →
      p'.session.cache.get? u ≠ some slot →
      e.Invalidates u ∨
        ∃ n, e = .discard n ∧ p.phase? n = some (.failed slot) ∧ FetchFailed ms n slot) ∧
    (∀ n c slot own f, p.calls[n]? = some c → c.phase = .waiting slot own →
      p.session.result? slot = some (.error f) → f.isCancellation = true →
      ¬ RanFetch ms n slot → c.canceled = false →
      (p.step (.wake n)).isSome ∧
      ∀ e p', p.step e = some p' →
        p'.phase? n = some (.waiting slot own) ∨ (e = .wake n ∧ p'.phase? n = some .looking)) := by
  have horderly := orderly_of_course h
  have hrecorded := allRecorded_of_course h
  refine ⟨horderly.cache.settings, ?_, ?_⟩
  · intro e p' u slot hstep hu hgone
    rcases leaves_cache_cases hstep hu hgone with hinv | ⟨n, c, rfl, hc, hφ⟩
    · exact .inl hinv
    · exact .inr ⟨n, rfl, by rw [phase?, hc, Option.map_some, hφ],
        (hrecorded n c hc).failed slot hφ⟩
  · intro n c slot own f hc hφ hr hf hran hcanceled
    -- a call that waits for its own slot has asked the client
    obtain rfl : own = false := by
      cases own with
      | false => rfl
      | true => exact absurd ((hrecorded n c hc).ran slot (by rw [hφ]; rfl)) hran
    have hwake := wake_starts_over hc hφ hcanceled hr hf
    refine ⟨by rw [hwake]; rfl, fun e p' hstep => ?_⟩
    rcases waits_or_goes_on hstep hc hφ with hsame | rfl | ⟨-, hcanceled'⟩
    · exact .inl hsame
    · obtain rfl := Option.some.inj (hwake.symm.trans hstep)
      exact .inr ⟨rfl, by rw [phase?, getElem?_move_self _ _ hc]; rfl⟩
    · exact absurd (hcanceled.symm.trans hcanceled') (by simp)

/-- A document is closed and asked for anew while the client is asked for its settings, with a call
    waiting. The first request runs out of time, which neither costs the second one its place nor
    reaches the call. -/
def outdatedFetch : List SettingsEvent :=
  [.announce { configuration := true }, .begin "a" true false, .lookUp 0, .startFetch 0,
    .begin "a" true false, .lookUp 1, .forget "a", .begin "a" true false, .lookUp 2, .startFetch 2,
    .endFetch 0 (.error .expired), .discard 0, .complete 0]

/-- The waiting call never asked the client, so it can only look its document up again. -/
theorem failures_isolated_outdatedFetch :
    ∃ p, outdatedFetch.foldlM step {} = some p ∧ p.session.cache.get? "a" = some 1 ∧
      p.phase? 1 = some (.waiting 0 false) ∧ p.session.result? 0 = some (.error .expired) ∧
      (p.step (.wake 1)).isSome ∧
      ∀ e p', p.step e = some p' →
        p'.phase? 1 = some (.waiting 0 false) ∨ (e = .wake 1 ∧ p'.phase? 1 = some .looking) := by
  have hnever : ∀ x ∈ Course.moments step {} outdatedFetch, x.event ≠ .startFetch 1 := by decide
  have hnot : ¬ RanFetch (Course.moments step {} outdatedFetch) 1 0 := by
    rintro ⟨-, j, -, ⟨q, hj, -⟩, -⟩
    exact hnever _ (List.mem_of_getElem? hj) rfl
  exact ⟨_, rfl, rfl, rfl, rfl,
    (failures_isolated (Course.of_events outdatedFetch rfl)).2.2 1 _ 0 false .expired rfl rfl rfl
      rfl hnot rfl⟩

end SettingsCalls
end MarkupLint
