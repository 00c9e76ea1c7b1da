/-
  Who works on which slot.

  A call that finds no slot for its document makes one, and works on it until it has opened it to
  the others. In all that time the slot is its own: no other call works on it (`Orderly.alone`), and
  nobody sees what is in it. What a slot brings to the cache is settled before it is opened: if it
  is still in the cache when its call is about to open it, settings are in it (`WorksWell.closing`),
  and so an open slot in the cache never holds a failure (`CacheSound.settings`).

  A step touches at most the slot of the call that takes it. So the invariant is kept call by call:
  the slots of the other calls are spared (`Spared`), and what is left to show is about one call.
-/
import MarkupLint.Proofs.SettingsCourse

namespace MarkupLint

/-- The slot that a call works on: it has made the slot, and has not opened it yet. -/
def CallPhase.works? : CallPhase → Option Nat
  | .owning slot | .fetching slot | .failed slot | .closing slot => some slot
  | .global | .looking | .waiting _ _ | .returned _ => none

namespace SettingsCalls

/-- The cache: under a document stands a slot of this document, and if the slot is open, it holds
    settings. -/
structure CacheSound (s : Session) : Prop where
  uri : ∀ u slot, s.cache.get? u = some slot → ∃ y, s.slots[slot]? = some y ∧ y.uri = u
  settings : ∀ u slot y, s.cache.get? u = some slot → s.slots[slot]? = some y → y.isDone = true →
    ∃ v, y.result = some (.ok v)

/-- A call and the slot that it works on: the slot is for the document of the call and not open. If
    it is about to be opened and in the cache, it holds settings. -/
structure WorksWell (s : Session) (c : SettingsCall) : Prop where
  slot : ∀ slot, c.phase.works? = some slot →
    ∃ y, s.slots[slot]? = some y ∧ y.uri = c.uri ∧ y.isDone = false
  closing : ∀ u slot, c.phase = .closing slot → s.cache.get? u = some slot →
    ∃ y v, s.slots[slot]? = some y ∧ y.result = some (.ok v)

/-- Calls do not get into each other's way. -/
structure Orderly (p : SettingsCalls) : Prop where
  cache : CacheSound p.session
  calls : ∀ (n : Nat) (c : SettingsCall), p.calls[n]? = some c → WorksWell p.session c
  alone : ∀ (n m : Nat) (c d : SettingsCall) (slot : Nat), p.calls[n]? = some c →
    p.calls[m]? = some d → c.phase.works? = some slot → d.phase.works? = some slot → n = m

variable {p : SettingsCalls} {s s' : Session} {n : Nat} {c : SettingsCall} {φ : CallPhase}

/-- A slot stays as it is, and does not come into the cache. -/
def Spared (s s' : Session) (slot : Nat) : Prop :=
  s'.slots[slot]? = s.slots[slot]? ∧ ∀ u, s'.cache.get? u = some slot → s.cache.get? u = some slot

/-- A call whose slot is spared has it in order as before. -/
theorem WorksWell.spared (h : WorksWell s c)
    (hspared : ∀ slot, c.phase.works? = some slot → Spared s s' slot) : WorksWell s' c := by
  constructor
  · intro slot hslot
    rw [(hspared slot hslot).1]
    exact h.slot slot hslot
  · intro u slot hφ hu
    have hslot := hspared slot (by rw [hφ]; rfl)
    rw [hslot.1]
    exact h.closing u slot hφ (hslot.2 u hu)

/-- A call that works on nothing has nothing to keep in order. -/
theorem worksWell_idle (h : c.phase.works? = none) : WorksWell s c := by
  constructor
  · intro slot hslot
    exact absurd (h.symm.trans hslot) (by simp)
  · intro u slot hφ
    rw [hφ] at h
    exact absurd h (by simp [CallPhase.works?])

/-- The same slots, and nothing new in the cache. -/
theorem CacheSound.shrink (h : CacheSound s) (hslots : s'.slots = s.slots)
    (hcache : ∀ u slot, s'.cache.get? u = some slot → s.cache.get? u = some slot) :
    CacheSound s' := by
  constructor
  · intro u slot hu
    rw [hslots]
    exact h.uri u slot (hcache u slot hu)
  · intro u slot y hu hy
    rw [hslots] at hy
    exact h.settings u slot y (hcache u slot hu) hy

/-- A call moves on. What it works on afterwards it worked on before, or it is a slot that has been
    made in this step. -/
theorem Orderly.of_move (h : Orderly p) (hc : p.calls[n]? = some c) (hcache : CacheSound s')
    (hspared : ∀ (m : Nat) (d : SettingsCall) (slot : Nat), m ≠ n → p.calls[m]? = some d →
      d.phase.works? = some slot → Spared p.session s' slot)
    (hcall : WorksWell s' { c with phase := φ })
    (hworks : ∀ slot, φ.works? = some slot →
      c.phase.works? = some slot ∨ slot = p.session.slots.length) :
    Orderly (p.move n s' φ) := by
  -- of the call that moves and another one: they do not work on the same slot
  have apart : ∀ (m : Nat) (d : SettingsCall) (slot : Nat), p.calls[m]? = some d →
      φ.works? = some slot → d.phase.works? = some slot → n = m := by
    intro m d slot hd hslot hdslot
    rcases hworks slot hslot with hold | rfl
    · exact h.alone n m c d slot hc hd hold hdslot
    · obtain ⟨y, hy, -⟩ := (h.calls m d hd).slot _ hdslot
      exact absurd (List.getElem?_eq_some_iff.mp hy).1 (Nat.lt_irrefl _)
  refine ⟨hcache, ?_, ?_⟩
  · intro k d hd
    by_cases hk : n = k
    · subst hk
      rw [getElem?_move_self s' φ hc] at hd
      exact Option.some.inj hd ▸ hcall
    · rw [getElem?_move_of_ne s' φ hk] at hd
      exact (h.calls k d hd).spared fun slot hslot => hspared k d slot (Ne.symm hk) hd hslot
  · intro k m d e slot hd he hdslot heslot
    -- of two calls on one slot, the call that moves may be the one, or the other, or neither
    by_cases hk : n = k <;> by_cases hm : n = m
    · exact hk.symm.trans hm
    · subst hk
      rw [getElem?_move_self s' φ hc] at hd
      rw [getElem?_move_of_ne s' φ hm] at he
      obtain rfl := Option.some.inj hd
      exact apart m e slot he hdslot heslot
    · subst hm
      rw [getElem?_move_self s' φ hc] at he
      rw [getElem?_move_of_ne s' φ hk] at hd
      obtain rfl := Option.some.inj he
      exact (apart k d slot hd heslot hdslot).symm
    · rw [getElem?_move_of_ne s' φ hk] at hd
      rw [getElem?_move_of_ne s' φ hm] at he
      exact h.alone k m d e slot hd he hdslot heslot

/-- A call moves on that works on nothing afterwards, and the session stays as it is. -/
theorem Orderly.of_idle (h : Orderly p) (hc : p.calls[n]? = some c) (hφ : φ.works? = none) :
    Orderly (p.move n p.session φ) := by
  refine h.of_move hc h.cache (fun _ _ _ _ _ _ => ⟨rfl, fun _ => id⟩) (worksWell_idle hφ) ?_
  intro slot hslot
  exact absurd (hφ.symm.trans hslot) (by simp)

/-- The session changes, with its slots as they are and nothing new in the cache. -/
theorem Orderly.of_session (h : Orderly p) (hslots : s'.slots = p.session.slots)
    (hcache : ∀ u slot, s'.cache.get? u = some slot → p.session.cache.get? u = some slot) :
    Orderly { p with session := s' } where
  cache := h.cache.shrink hslots hcache
  calls k d hd := (h.calls k d hd).spared fun slot _ => ⟨by rw [hslots], fun u => hcache u slot⟩
  alone := h.alone

/-- What a call changes in its own slot spares the slots of the others. -/
theorem Orderly.spared_of_modify {slot k : Nat} {f : SettingsSlot → SettingsSlot} (h : Orderly p)
    (hc : p.calls[n]? = some c) (hslot : c.phase.works? = some slot) {m : Nat} {d : SettingsCall}
    (hm : m ≠ n) (hd : p.calls[m]? = some d) (hk : d.phase.works? = some k) :
    Spared p.session { p.session with slots := p.session.slots.modify slot f } k := by
  have hne : slot ≠ k := by
    rintro rfl
    exact hm (h.alone m n d c slot hd hc hk hslot)
  exact ⟨List.getElem?_modify_ne f p.session.slots hne, fun _ => id⟩

/-! ## What steps preserve -/

/-- A call begins, and works on nothing. -/
theorem Orderly.of_begin (h : Orderly p) (uri : String) (canceled : Bool) (hφ : φ.works? = none) :
    Orderly { p with calls := p.calls ++ [⟨uri, canceled, φ⟩] } := by
  have old : ∀ (k : Nat) (d : SettingsCall), (p.calls ++ [⟨uri, canceled, φ⟩])[k]? = some d →
      p.calls[k]? = some d ∨ d.phase.works? = none := by
    intro k d hd
    rw [List.getElem?_append] at hd
    split at hd
    · exact .inl hd
    · have hmem := List.mem_of_getElem? hd
      rw [List.mem_singleton] at hmem
      exact .inr (hmem ▸ hφ)
  refine ⟨h.cache, ?_, ?_⟩
  · intro k d hd
    rcases old k d hd with hold | hnew
    · exact h.calls k d hold
    · exact worksWell_idle hnew
  · intro k m d e slot hd he hdslot heslot
    rcases old k d hd with hd | hnone
    · rcases old m e he with he | hnone
      · exact h.alone k m d e slot hd he hdslot heslot
      · exact absurd (hnone.symm.trans heslot) (by simp)
    · exact absurd (hnone.symm.trans hdslot) (by simp)

/-- A call that finds no slot makes one and works on it. -/
theorem Orderly.of_miss (h : Orderly p) (hc : p.calls[n]? = some c) :
    Orderly (p.move n (p.session.withSlot c.uri) (.owning p.session.slots.length)) := by
  have hnew : (p.session.withSlot c.uri).slots[p.session.slots.length]? =
      some { uri := c.uri } := by
    simp [Session.withSlot]
  -- the number of the new slot is that of no other
  have hold : ∀ slot, slot ≠ p.session.slots.length →
      (p.session.withSlot c.uri).slots[slot]? = p.session.slots[slot]? := by
    intro slot hne
    rcases Nat.lt_or_gt_of_ne hne with hlt | hgt
    · rw [Session.withSlot, List.getElem?_append_left hlt]
    · rw [List.getElem?_eq_none (by simp [Session.withSlot]; omega),
        List.getElem?_eq_none (by omega)]
  -- what the cache holds: the new slot for this document, and what it held before for the others
  have hcached : ∀ u slot, (p.session.withSlot c.uri).cache.get? u = some slot →
      (u = c.uri ∧ slot = p.session.slots.length) ∨
        (slot ≠ p.session.slots.length ∧ p.session.cache.get? u = some slot) := by
    intro u slot hu
    rw [Session.withSlot, Table.get?_put] at hu
    split at hu
    · exact .inl ⟨‹_›, (Option.some.inj hu).symm⟩
    · obtain ⟨y, hy, -⟩ := h.cache.uri u slot hu
      exact .inr ⟨Nat.ne_of_lt (List.getElem?_eq_some_iff.mp hy).1, hu⟩
  refine h.of_move hc ⟨?_, ?_⟩ ?_ ⟨?_, by simp⟩ ?_
  · intro u slot hu
    rcases hcached u slot hu with ⟨rfl, rfl⟩ | ⟨hne, hu⟩
    · exact ⟨_, hnew, rfl⟩
    · rw [hold slot hne]
      exact h.cache.uri u slot hu
  · intro u slot y hu hy hdone
    rcases hcached u slot hu with ⟨rfl, rfl⟩ | ⟨hne, hu⟩
    · obtain rfl : { uri := c.uri } = y := Option.some.inj (hnew.symm.trans hy)
      exact absurd hdone (by simp)
    · rw [hold slot hne] at hy
      exact h.cache.settings u slot y hu hy hdone
  · intro m d slot _ hd hslot
    obtain ⟨y, hy, -⟩ := (h.calls m d hd).slot slot hslot
    have hne : slot ≠ p.session.slots.length := Nat.ne_of_lt (List.getElem?_eq_some_iff.mp hy).1
    refine ⟨hold slot hne, fun u hu => ?_⟩
    rcases hcached u slot hu with ⟨-, rfl⟩ | ⟨-, hu⟩
    · exact absurd rfl hne
    · exact hu
  · intro slot hslot
    obtain rfl : p.session.slots.length = slot := Option.some.inj hslot
    exact ⟨_, hnew, rfl, rfl⟩
  · intro slot hslot
    exact .inr (Option.some.inj hslot).symm

/-- The client's answer goes into the slot of the call. -/
theorem Orderly.of_endFetch {slot : Nat} (h : Orderly p) (hc : p.calls[n]? = some c)
    (hφ : c.phase = .fetching slot) (r : SettingsResult) :
    Orderly
      (p.move n (p.session.fill slot r) (if r.isOk then .closing slot else .failed slot)) := by
  have hworks : c.phase.works? = some slot := by rw [hφ]; rfl
  obtain ⟨y₀, hy₀, huri, hopen⟩ := (h.calls n c hc).slot slot hworks
  have hget : (p.session.fill slot r).slots[slot]? = some { y₀ with result := some r } := by
    simp [Session.fill, hy₀]
  have hother : ∀ k, slot ≠ k → (p.session.fill slot r).slots[k]? = p.session.slots[k]? := by
    intro k hk
    exact List.getElem?_modify_ne _ p.session.slots hk
  refine h.of_move hc ⟨?_, ?_⟩ (fun m d k hm hd hk => h.spared_of_modify hc hworks hm hd hk)
    ⟨?_, ?_⟩ ?_
  · intro u k hu
    obtain ⟨y, hy, hyu⟩ := h.cache.uri u k hu
    by_cases hk : slot = k
    · subst hk
      obtain rfl : y₀ = y := Option.some.inj (hy₀.symm.trans hy)
      exact ⟨_, hget, hyu⟩
    · exact ⟨y, by rw [hother k hk]; exact hy, hyu⟩
  · intro u k y hu hy hdone
    by_cases hk : slot = k
    · -- the slot of the call is not open
      subst hk
      obtain rfl := Option.some.inj (hget.symm.trans hy)
      exact absurd (hopen.symm.trans hdone) (by simp)
    · rw [hother k hk] at hy
      exact h.cache.settings u k y hu hy hdone
  · intro k hk
    obtain rfl : slot = k := by
      cases hr : r.isOk <;> simpa [hr, CallPhase.works?] using hk
    exact ⟨_, hget, huri, hopen⟩
  · intro u k hclosing hu
    cases r with
    | error f => exact absurd hclosing (by simp [Except.isOk, Except.toBool])
    | ok v =>
      obtain rfl : slot = k := by simpa [Except.isOk, Except.toBool] using hclosing
      exact ⟨_, v, hget, rfl⟩
  · intro k hk
    cases hr : r.isOk <;> exact .inl (by simpa [hr, CallPhase.works?, hφ] using hk)

/-- A call whose slot holds a failure takes it out of the cache. The slot is nowhere else, for the
    cache has it under the document of the call only. -/
theorem Orderly.of_discard {slot : Nat} (h : Orderly p) (hc : p.calls[n]? = some c)
    (hφ : c.phase = .failed slot) :
    Orderly (p.move n (p.session.discard c.uri slot) (.closing slot)) := by
  have hworks : c.phase.works? = some slot := by rw [hφ]; rfl
  obtain ⟨y, hy, huri, hopen⟩ := (h.calls n c hc).slot slot hworks
  have hslots := Session.discard_slots p.session c.uri slot
  refine h.of_move hc (h.cache.shrink hslots fun u k => Session.get?_of_discard)
    (fun m d k _ _ _ => ⟨by rw [hslots], fun u => Session.get?_of_discard⟩) ⟨?_, ?_⟩ ?_
  · intro k hk
    obtain rfl : slot = k := Option.some.inj hk
    exact ⟨y, by rw [hslots]; exact hy, huri, hopen⟩
  · intro u k hclosing hu
    obtain rfl : slot = k := CallPhase.closing.inj hclosing
    -- if the slot were still in the cache, it would be there under this document, and it is not
    have hcached := Session.get?_of_discard hu
    obtain ⟨y', hy', hyu⟩ := h.cache.uri u slot hcached
    obtain rfl : y = y' := Option.some.inj (hy.symm.trans hy')
    obtain rfl : c.uri = u := huri.symm.trans hyu
    rw [Session.discard, if_pos hcached] at hu
    exact absurd hu (by simp)
  · intro k hk
    exact .inl (by rw [hφ]; exact hk)

/-- A call opens its slot. -/
theorem Orderly.of_complete {slot : Nat} (h : Orderly p) (hc : p.calls[n]? = some c)
    (hφ : c.phase = .closing slot) :
    Orderly (p.move n (p.session.complete slot) (.waiting slot true)) := by
  have hworks : c.phase.works? = some slot := by rw [hφ]; rfl
  refine h.of_move hc ⟨?_, ?_⟩ (fun m d k hm hd hk => h.spared_of_modify hc hworks hm hd hk)
    (worksWell_idle rfl) (by simp [CallPhase.works?])
  · intro u k hu
    obtain ⟨y, hy, hyu⟩ := h.cache.uri u k hu
    exact ⟨_, by rw [Session.getElem?_complete, hy]; rfl, by split <;> exact hyu⟩
  · intro u k y hu hy hdone
    rw [Session.getElem?_complete] at hy
    obtain ⟨y₀, hy₀, rfl⟩ := Option.map_eq_some_iff.mp hy
    by_cases hk : slot = k
    · -- the slot that has just been opened: it is still in the cache, so it holds settings
      subst hk
      obtain ⟨y₁, v, hy₁, hv⟩ := (h.calls n c hc).closing u slot hφ hu
      obtain rfl : y₀ = y₁ := Option.some.inj (hy₀.symm.trans hy₁)
      exact ⟨v, by rw [if_pos rfl]; exact hv⟩
    · rw [if_neg hk] at hdone ⊢
      exact h.cache.settings u k y₀ hu hy₀ hdone

/-- A call learns that it is cancelled, and works on what it worked on. -/
theorem Orderly.of_cancel (h : Orderly p) (n : Nat) :
    Orderly { p with calls := p.calls.modify n fun c => { c with canceled := true } } := by
  have old : ∀ (k : Nat) (d : SettingsCall),
      (p.calls.modify n fun c => { c with canceled := true })[k]? = some d →
      ∃ c, p.calls[k]? = some c ∧ c.phase = d.phase ∧ c.uri = d.uri := by
    intro k d hd
    rw [List.getElem?_modify] at hd
    obtain ⟨c, hc, rfl⟩ := Option.map_eq_some_iff.mp hd
    exact ⟨c, hc, by split <;> rfl, by split <;> rfl⟩
  refine ⟨h.cache, ?_, ?_⟩
  · intro k d hd
    obtain ⟨c, hc, hphase, huri⟩ := old k d hd
    have hworks := h.calls k c hc
    constructor
    · rw [← hphase, ← huri]
      exact hworks.slot
    · rw [← hphase]
      exact hworks.closing
  · intro k m d e slot hd he hdslot heslot
    obtain ⟨d', hd', hdφ, -⟩ := old k d hd
    obtain ⟨e', he', heφ, -⟩ := old m e he
    exact h.alone k m d' e' slot hd' he' (by rw [hdφ]; exact hdslot) (by rw [heφ]; exact heslot)

/-- **What one step preserves**: calls do not get into each other's way. -/
theorem Orderly.step {p' : SettingsCalls} {e : SettingsEvent} (h : Orderly p)
    (hstep : p.step e = some p') : Orderly p' := by
  cases effect_of_step hstep with
  | begin uri fetches canceled => exact h.of_begin uri canceled (by split <;> rfl)
  | takeGlobal n c hc hφ => exact h.of_idle hc rfl
  | miss n c hc hφ hmiss => exact h.of_miss hc
  | hit n c slot hc hφ hhit => exact h.of_idle hc rfl
  | startFetch n c slot hc hφ =>
    -- the call keeps the slot that it owns, and nothing else changes
    refine h.of_move hc h.cache (fun _ _ _ _ _ _ => ⟨rfl, fun _ => id⟩) ⟨?_, by simp⟩ ?_
    · intro k hk
      exact (h.calls n c hc).slot k (by rw [hφ]; exact hk)
    · intro k hk
      exact .inl (by rw [hφ]; exact hk)
  | endFetch n r c slot hc hφ => exact h.of_endFetch hc hφ r
  | discard n c slot hc hφ => exact h.of_discard hc hφ
  | complete n c slot hc hφ => exact h.of_complete hc hφ
  | take n c slot own r hc hφ hr => exact h.of_idle hc rfl
  | retry n c slot f hc hφ hr hcanceled hf => exact h.of_idle hc rfl
  | giveUp n c slot own hc hφ hcanceled => exact h.of_idle hc rfl
  | cancel n => exact h.of_cancel n
  | forget uri =>
    exact h.of_session rfl fun u slot hu => Table.get?_of_get?_erase hu
  | reset settings =>
    refine h.of_session (Session.reset_slots _ _) fun u slot hu => ?_
    rw [Session.reset_cache] at hu
    exact absurd hu (by simp)
  | announce caps =>
    have hslots : (p.session.announce caps).slots = p.session.slots := by
      unfold Session.announce
      split <;> rfl
    refine h.of_session hslots fun u slot hu => ?_
    unfold Session.announce at hu
    split at hu <;> exact hu

/-- Calls do not get into each other's way in any course of a session, from its very beginning
    on. -/
theorem orderly_of_course {ms : List (Moment SettingsCalls SettingsEvent)}
    (h : Course step {} ms p) : Orderly p := by
  induction h with
  | nil => exact ⟨⟨by simp, by simp⟩, by simp, by simp⟩
  | snoc _ hstep ih => exact ih.step hstep

end SettingsCalls
end MarkupLint
