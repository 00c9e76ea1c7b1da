/-
  Calls for settings, step by step: what each step can do, said once.

  `SettingsCalls.effect_of_step` takes a step apart into the cases of `SettingsCalls.Effect`, with
  what was there before the step and what is there after it. Invariants of courses are proved by
  these cases and do not open `SettingsCalls.step` again.
-/
import MarkupLint.Proofs.Course
import MarkupLint.Proofs.Table
import MarkupLint.Session.Call

namespace MarkupLint

/-! ## The session -/

namespace Session

/-- The session in which a document has got a new slot. -/
def withSlot (s : Session) (uri : String) : Session :=
  { s with slots := s.slots ++ [{ uri := uri }], cache := s.cache.put uri s.slots.length }

/-- A document without a slot gets one. -/
theorem lookUp_of_none {s : Session} {uri : String} (h : s.cache.get? uri = none) :
    s.lookUp uri = (s.withSlot uri, s.slots.length, true) := by
  simp [lookUp, h, withSlot]

/-- A document with a slot keeps it. -/
theorem lookUp_of_some {s : Session} {uri : String} {slot : Nat}
    (h : s.cache.get? uri = some slot) : s.lookUp uri = (s, slot, false) := by
  simp [lookUp, h]

/-- A slot that is open holds its result. -/
theorem slot_of_result? {s : Session} {slot : Nat} {r : SettingsResult}
    (h : s.result? slot = some r) :
    ∃ x, s.slots[slot]? = some x ∧ x.isDone = true ∧ x.result = some r := by
  unfold result? at h
  cases hx : s.slots[slot]? with
  | none => rw [hx] at h; exact absurd h (by simp)
  | some x =>
    rw [hx] at h
    by_cases hd : x.isDone
    · exact ⟨x, rfl, hd, by simpa [hd] using h⟩
    · exact absurd h (by simp [hd])

/-- New settings for all documents empty the cache. The slots stay, for calls may wait at them. -/
theorem reset_cache (s : Session) (settings : Option Settings) : (s.reset settings).cache = [] := by
  simp only [reset]
  split <;> rfl

theorem reset_slots (s : Session) (settings : Option Settings) :
    (s.reset settings).slots = s.slots := by
  simp only [reset]
  split <;> rfl

theorem reset_announced (s : Session) (settings : Option Settings) :
    (s.reset settings).announced = s.announced := by
  simp only [reset]
  split <;> rfl

/-- Opening a slot changes no other slot, and in this one no more than that it is open. -/
theorem getElem?_complete (s : Session) (slot k : Nat) :
    (s.complete slot).slots[k]? = s.slots[k]?.map
      fun y => if slot = k then { y with isDone := true } else y := by
  simp [complete, List.getElem?_modify]

/-- Taking a slot out of the cache brings nothing into it. -/
theorem get?_of_discard {s : Session} {uri other : String} {slot k : Nat}
    (h : (s.discard uri slot).cache.get? other = some k) : s.cache.get? other = some k := by
  unfold discard at h
  split at h
  · exact Table.get?_of_get?_erase h
  · exact h

theorem discard_slots (s : Session) (uri : String) (slot : Nat) :
    (s.discard uri slot).slots = s.slots := by
  unfold discard
  split <;> rfl

theorem discard_announced (s : Session) (uri : String) (slot : Nat) :
    (s.discard uri slot).announced = s.announced := by
  unfold discard
  split <;> rfl

end Session

/-! ## Steps -/

/-- The slot that a call has to do with. -/
def CallPhase.slot? : CallPhase → Option Nat
  | .owning slot | .fetching slot | .failed slot | .closing slot | .waiting slot _ => some slot
  | .global | .looking | .returned _ => none

namespace SettingsCalls

variable {p p' : SettingsCalls} {e : SettingsEvent} {n : Nat}

/-- A step moves one call, and leaves the others where they are. -/
theorem getElem?_move (p : SettingsCalls) (n k : Nat) (s : Session) (φ : CallPhase) :
    (p.move n s φ).calls[k]? =
      if n = k then p.calls[k]?.map fun c => { c with phase := φ } else p.calls[k]? := by
  simp only [move, List.getElem?_modify]
  split
  · rfl
  · cases p.calls[k]? <;> rfl

theorem getElem?_move_self {c : SettingsCall} (s : Session) (φ : CallPhase)
    (h : p.calls[n]? = some c) : (p.move n s φ).calls[n]? = some { c with phase := φ } := by
  rw [getElem?_move, if_pos rfl, h]
  rfl

theorem getElem?_move_of_ne {k : Nat} (s : Session) (φ : CallPhase) (h : n ≠ k) :
    (p.move n s φ).calls[k]? = p.calls[k]? := by
  rw [getElem?_move, if_neg h]

@[simp] theorem length_move (s : Session) (φ : CallPhase) :
    (p.move n s φ).calls.length = p.calls.length := by
  simp [move]

/-- A call that is in a phase is one of the calls. -/
theorem phase?_eq_some {φ : CallPhase} (h : p.phase? n = some φ) :
    ∃ c, p.calls[n]? = some c ∧ c.phase = φ := by
  simpa [phase?, Option.map_eq_some_iff] using h

/-- What a step can do, one case for each way in which it can go. -/
inductive Effect (p : SettingsCalls) : SettingsEvent → SettingsCalls → Prop where
  | begin (uri : String) (fetches canceled : Bool) :
      Effect p (.begin uri fetches canceled)
        { p with calls := p.calls ++ [⟨uri, canceled,
            if p.session.capabilities.configuration && fetches then .looking else .global⟩] }
  | takeGlobal (n : Nat) (c : SettingsCall) (hc : p.calls[n]? = some c) (hφ : c.phase = .global) :
      Effect p (.takeGlobal n) (p.move n p.session (.returned (.ok p.session.global)))
  /-- the document has no slot, and the call makes one -/
  | miss (n : Nat) (c : SettingsCall) (hc : p.calls[n]? = some c) (hφ : c.phase = .looking)
      (hmiss : p.session.cache.get? c.uri = none) :
      Effect p (.lookUp n)
        (p.move n (p.session.withSlot c.uri) (.owning p.session.slots.length))
  | hit (n : Nat) (c : SettingsCall) (slot : Nat) (hc : p.calls[n]? = some c)
      (hφ : c.phase = .looking) (hhit : p.session.cache.get? c.uri = some slot) :
      Effect p (.lookUp n) (p.move n p.session (.waiting slot false))
  | startFetch (n : Nat) (c : SettingsCall) (slot : Nat) (hc : p.calls[n]? = some c)
      (hφ : c.phase = .owning slot) :
      Effect p (.startFetch n) (p.move n p.session (.fetching slot))
  | endFetch (n : Nat) (r : SettingsResult) (c : SettingsCall) (slot : Nat)
      (hc : p.calls[n]? = some c) (hφ : c.phase = .fetching slot) :
      Effect p (.endFetch n r)
        (p.move n (p.session.fill slot r) (if r.isOk then .closing slot else .failed slot))
  | discard (n : Nat) (c : SettingsCall) (slot : Nat) (hc : p.calls[n]? = some c)
      (hφ : c.phase = .failed slot) :
      Effect p (.discard n) (p.move n (p.session.discard c.uri slot) (.closing slot))
  | complete (n : Nat) (c : SettingsCall) (slot : Nat) (hc : p.calls[n]? = some c)
      (hφ : c.phase = .closing slot) :
      Effect p (.complete n) (p.move n (p.session.complete slot) (.waiting slot true))
  /-- the slot is open, and its result is taken -/
  | take (n : Nat) (c : SettingsCall) (slot : Nat) (own : Bool) (r : SettingsResult)
      (hc : p.calls[n]? = some c) (hφ : c.phase = .waiting slot own)
      (hr : p.session.result? slot = some r) :
      Effect p (.wake n) (p.move n p.session (.returned r))
  /-- the slot is open, and somebody else was cancelled who should have filled it -/
  | retry (n : Nat) (c : SettingsCall) (slot : Nat) (f : Failure) (hc : p.calls[n]? = some c)
      (hφ : c.phase = .waiting slot false) (hr : p.session.result? slot = some (.error f))
      (hcanceled : c.canceled = false) (hf : f.isCancellation = true) :
      Effect p (.wake n) (p.move n p.session .looking)
  | giveUp (n : Nat) (c : SettingsCall) (slot : Nat) (own : Bool) (hc : p.calls[n]? = some c)
      (hφ : c.phase = .waiting slot own) (hcanceled : c.canceled = true) :
      Effect p (.giveUp n) (p.move n p.session (.returned (.error .canceled)))
  | cancel (n : Nat) :
      Effect p (.cancel n)
        { p with calls := p.calls.modify n fun c => { c with canceled := true } }
  | forget (uri : String) : Effect p (.forget uri) { p with session := p.session.forget uri }
  | reset (settings : Option Settings) :
      Effect p (.reset settings) { p with session := p.session.reset settings }
  | announce (c : Capabilities) :
      Effect p (.announce c) { p with session := p.session.announce c }

/-- How a call that sees its slot open goes on. -/
theorem effect_of_wake {c : SettingsCall} {slot : Nat} {own : Bool} {φ : CallPhase}
    (hc : p.calls[n]? = some c) (hφ : c.phase = .waiting slot own)
    (h : afterWait slot own c.canceled p.session = some φ) :
    Effect p (.wake n) (p.move n p.session φ) := by
  unfold afterWait at h
  cases hr : p.session.result? slot with
  | none => rw [hr] at h; exact absurd h (by simp)
  | some r =>
    rw [hr] at h
    cases r with
    | ok v =>
      obtain rfl : CallPhase.returned (.ok v) = φ := by simpa using h
      exact .take n c slot own _ hc hφ hr
    | error f =>
      -- a failure is taken as the result, unless it is somebody else's cancellation
      by_cases hagain : !own && !c.canceled && f.isCancellation
      · simp only [hagain, if_true, Option.some.injEq] at h
        simp only [Bool.and_eq_true, Bool.not_eq_true'] at hagain
        obtain ⟨⟨rfl, hcanceled⟩, hf⟩ := hagain
        exact h ▸ .retry n c slot f hc hφ hr hcanceled hf
      · obtain rfl : CallPhase.returned (.error f) = φ := by simpa [hagain] using h
        exact .take n c slot own _ hc hφ hr

/-- Every step has one of the effects. -/
theorem effect_of_step (h : p.step e = some p') : Effect p e p' := by
  cases e with
  | begin uri fetches canceled => exact Option.some.inj h ▸ .begin uri fetches canceled
  | cancel n => exact Option.some.inj h ▸ .cancel n
  | forget uri => exact Option.some.inj h ▸ .forget uri
  | reset settings => exact Option.some.inj h ▸ .reset settings
  | announce c => exact Option.some.inj h ▸ .announce c
  | takeGlobal n =>
    simp only [step] at h
    split at h
    · obtain ⟨c, hc, hφ⟩ := phase?_eq_some ‹_›
      exact Option.some.inj h ▸ .takeGlobal n c hc hφ
    · exact absurd h (by simp)
  | lookUp n =>
    simp only [step] at h
    split at h
    · rename_i uri canceled hc
      -- a document that has a slot is found, one that has none is not
      cases hslot : p.session.cache.get? uri with
      | none =>
        rw [Session.lookUp_of_none hslot] at h
        exact Option.some.inj h ▸ .miss n _ hc rfl hslot
      | some slot =>
        rw [Session.lookUp_of_some hslot] at h
        exact Option.some.inj h ▸ .hit n _ slot hc rfl hslot
    · exact absurd h (by simp)
  | startFetch n =>
    simp only [step] at h
    split at h
    · obtain ⟨c, hc, hφ⟩ := phase?_eq_some ‹_›
      exact Option.some.inj h ▸ .startFetch n c _ hc hφ
    · exact absurd h (by simp)
  | endFetch n r =>
    simp only [step] at h
    split at h
    · obtain ⟨c, hc, hφ⟩ := phase?_eq_some ‹_›
      exact Option.some.inj h ▸ .endFetch n r c _ hc hφ
    · exact absurd h (by simp)
  | discard n =>
    simp only [step] at h
    split at h
    · rename_i uri canceled slot hc
      exact Option.some.inj h ▸ .discard n _ slot hc rfl
    · exact absurd h (by simp)
  | complete n =>
    simp only [step] at h
    split at h
    · obtain ⟨c, hc, hφ⟩ := phase?_eq_some ‹_›
      exact Option.some.inj h ▸ .complete n c _ hc hφ
    · exact absurd h (by simp)
  | wake n =>
    simp only [step] at h
    split at h
    · rename_i uri canceled slot own hc
      obtain ⟨φ, hφ, rfl⟩ := Option.map_eq_some_iff.mp h
      exact effect_of_wake hc rfl hφ
    · exact absurd h (by simp)
  | giveUp n =>
    simp only [step] at h
    split at h
    · rename_i uri slot own hc
      exact Option.some.inj h ▸ .giveUp n _ slot own hc rfl rfl
    · exact absurd h (by simp)

end SettingsCalls
end MarkupLint
