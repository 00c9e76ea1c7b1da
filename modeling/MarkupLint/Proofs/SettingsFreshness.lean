/-
  The settings that a call returns are fresh: the client gave them for the same document, and was
  asked for them after everything that had made the settings of the document invalid when the call
  began.

  A call takes its settings from a slot, and a slot is filled by the call that made it, which asks
  the client after that. So it is enough to know when slots were made. The invariant carries along
  who made each slot and when (`made`): a slot in the cache is younger than the last invalidation of
  its document (`SlotsFresh.cached`), for an invalidation empties the place of the document, and a
  call that has found its slot found it in the cache after it began (`CallFresh.slot`).
-/
import Mathlib.Logic.Function.Basic
import MarkupLint.Proofs.SettingsCourse

namespace MarkupLint

/-- The settings of a document become invalid: the document is closed, or the settings for all
    documents change. -/
def SettingsEvent.Invalidates (uri : String) : SettingsEvent → Prop
  | .forget u => u = uri
  | .reset _ => True
  | _ => False

namespace SettingsCalls

/-- A moment in the course of a session. -/
abbrev Instant := Moment SettingsCalls SettingsEvent

variable {ms : List Instant} {x : Instant} {n m i j k : Nat} {uri : String}

/-- The settings of a document become invalid at a moment. -/
def Invalidated (uri : String) (x : Instant) : Prop := x.event.Invalidates uri

/-- The call of number `n` begins at the time `i`: it is about a document, and can ask the
    client. -/
def BeginsAt (ms : List Instant) (n : Nat) (uri : String) (i : Nat) : Prop :=
  ∃ p canceled, ms[i]? = some ⟨p, .begin uri true canceled⟩ ∧ p.calls.length = n

/-- A call starts at the time `j` to ask the client for the settings of a document. -/
def AsksAt (ms : List Instant) (m : Nat) (uri : String) (j : Nat) : Prop :=
  ∃ p c, ms[j]? = some ⟨p, .startFetch m⟩ ∧ p.calls[m]? = some c ∧ c.uri = uri

/-- A call gets the client's answer at the time `k`. -/
def GetsAt (ms : List Instant) (m : Nat) (r : SettingsResult) (k : Nat) : Prop :=
  ∃ p, ms[k]? = some ⟨p, .endFetch m r⟩

/-- From the time `j` to the time `k` a call asks the client for the settings of a document. It is
    the only time that it asks. -/
structure Fetch (ms : List Instant) (m : Nat) (uri : String) (r : SettingsResult)
    (j k : Nat) : Prop where
  starts : AsksAt ms m uri j
  ends : GetsAt ms m r k
  lt : j < k
  once : ∀ l u, AsksAt ms m u l → l = j

/-! ## The past stays as it is -/

theorem BeginsAt.lt_length (h : BeginsAt ms n uri i) : i < ms.length := by
  obtain ⟨p, canceled, hi, -⟩ := h
  exact lt_length_of_getElem? hi

/-- A call began before, or begins at the last moment. -/
theorem BeginsAt.snoc_cases (h : BeginsAt (ms ++ [x]) n uri i) :
    BeginsAt ms n uri i ∨
      (i = ms.length ∧ x.state.calls.length = n ∧
        ∃ canceled, x.event = .begin uri true canceled) := by
  obtain ⟨p, canceled, hi, hn⟩ := h
  rcases getElem?_snoc_cases hi with hold | ⟨hlen, rfl⟩
  · exact .inl ⟨p, canceled, hold, hn⟩
  · exact .inr ⟨hlen, hn, canceled, rfl⟩

/-- Requests that were made stay made. -/
theorem AsksAt.snoc (x : Instant) (h : AsksAt ms m uri j) : AsksAt (ms ++ [x]) m uri j := by
  obtain ⟨p, c, hj, hc⟩ := h
  exact ⟨p, c, getElem?_snoc_of_some x hj, hc⟩

/-- A request was made before, or is made at the last moment. -/
theorem AsksAt.snoc_cases (h : AsksAt (ms ++ [x]) m uri j) :
    AsksAt ms m uri j ∨ (j = ms.length ∧ x.event = .startFetch m) := by
  obtain ⟨p, c, hj, hc⟩ := h
  rcases getElem?_snoc_cases hj with hold | ⟨hlen, rfl⟩
  · exact .inl ⟨p, c, hold, hc⟩
  · exact .inr ⟨hlen, rfl⟩

theorem GetsAt.snoc {r : SettingsResult} (x : Instant) (h : GetsAt ms m r k) :
    GetsAt (ms ++ [x]) m r k := by
  obtain ⟨p, hk⟩ := h
  exact ⟨p, getElem?_snoc_of_some x hk⟩

/-! ## No call asks twice -/

/-- A call in this phase may still have to ask the client. -/
def mayAsk : CallPhase → Bool
  | .global | .looking | .owning _ | .waiting _ false => true
  | .fetching _ | .failed _ | .closing _ | .waiting _ true | .returned _ => false

/-- Calls that may still have to ask have not asked, and none has asked twice. -/
structure AskedOnce (ms : List Instant) (p : SettingsCalls) : Prop where
  unasked : ∀ n j u, AsksAt ms n u j → ∃ c, p.calls[n]? = some c ∧ mayAsk c.phase = false
  once : ∀ n i j u v, AsksAt ms n u i → AsksAt ms n v j → i = j

/-- A step in which nobody asks keeps the calls apart that have asked, if no call goes back to a
    phase in which it may ask. -/
theorem AskedOnce.of_no_request {p p' : SettingsCalls} {e : SettingsEvent} (h : AskedOnce ms p)
    (he : ∀ n, e ≠ .startFetch n)
    (hcalls : ∀ (n : Nat) (c : SettingsCall), p.calls[n]? = some c → mayAsk c.phase = false →
      ∃ c', p'.calls[n]? = some c' ∧ mayAsk c'.phase = false) :
    AskedOnce (ms ++ [⟨p, e⟩]) p' := by
  have old : ∀ {n u j}, AsksAt (ms ++ [⟨p, e⟩]) n u j → AsksAt ms n u j := by
    intro n u j hj
    rcases hj.snoc_cases with hold | ⟨-, hnew⟩
    · exact hold
    · exact absurd hnew (he n)
  refine ⟨fun n j u hj => ?_, fun n i j u v hi hj => h.once n i j u v (old hi) (old hj)⟩
  obtain ⟨c, hc, hφ⟩ := h.unasked n j u (old hj)
  exact hcalls n c hc hφ

/-- The same for the steps of one call. -/
theorem AskedOnce.of_move {p : SettingsCalls} {e : SettingsEvent} {c : SettingsCall} {s : Session}
    {φ : CallPhase} (h : AskedOnce ms p) (he : ∀ n, e ≠ .startFetch n) (hc : p.calls[n]? = some c)
    (hφ : mayAsk c.phase = false → mayAsk φ = false) :
    AskedOnce (ms ++ [⟨p, e⟩]) (p.move n s φ) := by
  refine h.of_no_request he fun k d hd hdφ => ?_
  by_cases hk : n = k
  · subst hk
    obtain rfl : c = d := Option.some.inj (hc.symm.trans hd)
    exact ⟨_, getElem?_move_self s φ hc, hφ hdφ⟩
  · exact ⟨d, by rw [getElem?_move_of_ne s φ hk]; exact hd, hdφ⟩

/-- **What one step preserves**: a call asks only when it has not asked before. -/
theorem AskedOnce.step {p p' : SettingsCalls} {e : SettingsEvent} (h : AskedOnce ms p)
    (hstep : p.step e = some p') : AskedOnce (ms ++ [⟨p, e⟩]) p' := by
  cases effect_of_step hstep with
  | startFetch n c slot hc hφ =>
    -- the one step in which a call asks: it owns a slot, so it has not asked before
    have hnew : ∀ {j u}, ¬ AsksAt ms n u j := by
      intro j u hj
      obtain ⟨c', hc', hφ'⟩ := h.unasked n j u hj
      obtain rfl : c = c' := Option.some.inj (hc.symm.trans hc')
      rw [hφ] at hφ'
      exact absurd hφ' (by simp [mayAsk])
    refine ⟨fun k j u hj => ?_, fun k i j u v hi hj => ?_⟩
    · by_cases hk : n = k
      · exact hk ▸ ⟨_, getElem?_move_self _ _ hc, rfl⟩
      · rcases hj.snoc_cases with hold | ⟨-, he⟩
        · rw [getElem?_move_of_ne _ _ hk]
          exact h.unasked k j u hold
        · exact absurd (SettingsEvent.startFetch.inj he) hk
    · -- two requests of one call: both old, or one of them new, which cannot be
      rcases hi.snoc_cases with hi | ⟨hi, hei⟩ <;> rcases hj.snoc_cases with hj | ⟨hj, hej⟩
      · exact h.once k i j u v hi hj
      · obtain rfl : n = k := SettingsEvent.startFetch.inj hej
        exact absurd hi hnew
      · obtain rfl : n = k := SettingsEvent.startFetch.inj hei
        exact absurd hj hnew
      · rw [hi, hj]
  | begin uri fetches canceled =>
    refine h.of_no_request (by simp) fun n c hc hφ => ⟨c, ?_, hφ⟩
    obtain ⟨hn, -⟩ := List.getElem?_eq_some_iff.mp hc
    rw [List.getElem?_append_left hn]
    exact hc
  | cancel n =>
    refine h.of_no_request (by simp) fun k c hc hφ => ?_
    refine ⟨if n = k then { c with canceled := true } else c, ?_, ?_⟩
    · simp [List.getElem?_modify, hc]
    · split <;> exact hφ
  | forget uri => exact h.of_no_request (by simp) fun n c hc hφ => ⟨c, hc, hφ⟩
  | reset settings => exact h.of_no_request (by simp) fun n c hc hφ => ⟨c, hc, hφ⟩
  | announce caps => exact h.of_no_request (by simp) fun n c hc hφ => ⟨c, hc, hφ⟩
  | takeGlobal n c hc hφ => exact h.of_move (by simp) hc (by simp [hφ, mayAsk])
  | miss n c hc hφ hmiss => exact h.of_move (by simp) hc (by simp [hφ, mayAsk])
  | hit n c slot hc hφ hhit => exact h.of_move (by simp) hc (by simp [hφ, mayAsk])
  | endFetch n r c slot hc hφ => exact h.of_move (by simp) hc (by split <;> simp [mayAsk])
  | discard n c slot hc hφ => exact h.of_move (by simp) hc (by simp [mayAsk])
  | complete n c slot hc hφ => exact h.of_move (by simp) hc (by simp [mayAsk])
  | take n c slot own r hc hφ hr => exact h.of_move (by simp) hc (by simp [mayAsk])
  | retry n c slot f hc hφ hr hcanceled hf => exact h.of_move (by simp) hc (by simp [hφ, mayAsk])
  | giveUp n c slot own hc hφ hcanceled => exact h.of_move (by simp) hc (by simp [mayAsk])

/-! ## Who made which slot, and when -/

/-- The client gave the settings `v` for a document, and was asked for them after everything that
    had made the settings of the document invalid before the time `i`. -/
def FreshSince (ms : List Instant) (uri : String) (i : Nat) (v : Settings) : Prop :=
  ∃ m j k, AsksAt ms m uri j ∧ GetsAt ms m (.ok v) k ∧ j < k ∧
    AllBefore (Invalidated uri) (ms.take i) j

/-- The slots of a session in the course of things: `made` says which call made a slot, and when. -/
structure SlotsFresh (made : Nat → Nat × Nat) (ms : List Instant) (s : Session) : Prop where
  answers : s.capabilities.configuration = true
  cached : ∀ u slot, s.cache.get? u = some slot →
    (∃ y, s.slots[slot]? = some y ∧ y.uri = u) ∧ AllBefore (Invalidated u) ms (made slot).2
  filled : ∀ slot y r, s.slots[slot]? = some y → y.result = some r →
    ∃ j k, AsksAt ms (made slot).1 y.uri j ∧ GetsAt ms (made slot).1 r k ∧ j < k ∧ (made slot).2 < j

/-- A call in the course of things. -/
structure CallFresh (made : Nat → Nat × Nat) (ms : List Instant) (s : Session) (n : Nat)
    (c : SettingsCall) : Prop where
  slot : ∀ slot, c.phase.slot? = some slot →
    (∃ y, s.slots[slot]? = some y ∧ y.uri = c.uri) ∧
    ∀ u i, BeginsAt ms n u i → AllBefore (Invalidated u) (ms.take i) (made slot).2
  owning : ∀ slot, c.phase = .owning slot → (made slot).1 = n ∧ (made slot).2 < ms.length
  fetching : ∀ slot, c.phase = .fetching slot →
    (made slot).1 = n ∧ ∃ j, AsksAt ms n c.uri j ∧ (made slot).2 < j
  begun : ∀ u i, BeginsAt ms n u i →
    c.uri = u ∧ c.phase ≠ .global ∧ ∀ v, c.phase = .returned (.ok v) → FreshSince ms u i v

/-- All slots and all calls in the course of things. -/
structure Provenance (made : Nat → Nat × Nat) (ms : List Instant) (p : SettingsCalls) : Prop where
  slots : SlotsFresh made ms p.session
  calls : ∀ (n : Nat) (c : SettingsCall), p.calls[n]? = some c → CallFresh made ms p.session n c
  known : ∀ n u i, BeginsAt ms n u i → n < p.calls.length

/-- Slots keep their documents. -/
def SlotsKept (s s' : Session) : Prop :=
  ∀ (slot : Nat) (y : SettingsSlot), s.slots[slot]? = some y →
    ∃ y', s'.slots[slot]? = some y' ∧ y'.uri = y.uri

theorem slotsKept_of_eq {s s' : Session} (h : s'.slots = s.slots) : SlotsKept s s' :=
  fun _ y hy => ⟨y, by rw [h]; exact hy, rfl⟩

/-- Settings that are fresh since some time stay so. -/
theorem FreshSince.snoc {v : Settings} (x : Instant) (hi : i ≤ ms.length)
    (h : FreshSince ms uri i v) : FreshSince (ms ++ [x]) uri i v := by
  obtain ⟨m, j, k, hj, hk, hlt, hall⟩ := h
  refine ⟨m, j, k, hj.snoc x, hk.snoc x, hlt, ?_⟩
  rw [List.take_append_of_le_length hi]
  exact hall

/-- What came before the time `i` is part of what has come. -/
theorem allBefore_take {P : Instant → Prop} {b : Nat} (i : Nat) (h : AllBefore P ms b) :
    AllBefore P (ms.take i) b := by
  intro l m hl hm
  rw [List.getElem?_take] at hl
  split at hl
  · exact h l m hl hm
  · exact absurd hl (by simp)

/-- What is known of a call stays true while others act. -/
theorem CallFresh.snoc {made made' : Nat → Nat × Nat} {s s' : Session} {c : SettingsCall}
    (h : CallFresh made ms s n c) (hx : ∀ u i, BeginsAt (ms ++ [x]) n u i → BeginsAt ms n u i)
    (hkept : SlotsKept s s')
    (hmade : ∀ (slot : Nat) (y : SettingsSlot), s.slots[slot]? = some y → made' slot = made slot) :
    CallFresh made' (ms ++ [x]) s' n c := by
  have same : ∀ {slot}, c.phase.slot? = some slot → made' slot = made slot := by
    intro slot hslot
    obtain ⟨⟨y, hy, -⟩, -⟩ := h.slot slot hslot
    exact hmade slot y hy
  refine ⟨fun slot hslot => ?_, fun slot hφ => ?_, fun slot hφ => ?_, fun u i hb => ?_⟩
  · obtain ⟨⟨y, hy, huri⟩, hall⟩ := h.slot slot hslot
    obtain ⟨y', hy', hyy'⟩ := hkept slot y hy
    refine ⟨⟨y', hy', hyy'.trans huri⟩, fun u i hb => ?_⟩
    have hb := hx u i hb
    rw [same hslot, List.take_append_of_le_length (Nat.le_of_lt hb.lt_length)]
    exact hall u i hb
  · rw [same (by rw [hφ]; rfl), List.length_append]
    obtain ⟨hn, hlt⟩ := h.owning slot hφ
    exact ⟨hn, by omega⟩
  · rw [same (by rw [hφ]; rfl)]
    obtain ⟨hn, j, hj, hlt⟩ := h.fetching slot hφ
    exact ⟨hn, j, hj.snoc x, hlt⟩
  · have hb := hx u i hb
    obtain ⟨hu, hφ, hret⟩ := h.begun u i hb
    exact ⟨hu, hφ, fun v hv => (hret v hv).snoc x (Nat.le_of_lt hb.lt_length)⟩

/-- A call that goes on with the slot that it has, or without one, and does not return settings. -/
theorem CallFresh.goOn {made : Nat → Nat × Nat} {s : Session} {c : SettingsCall} {φ : CallPhase}
    (h : CallFresh made ms s n c) (hslot : ∀ slot, φ.slot? = some slot → c.phase.slot? = some slot)
    (howning : ∀ slot, φ ≠ .owning slot) (hfetching : ∀ slot, φ ≠ .fetching slot)
    (hglobal : φ ≠ .global) (hret : ∀ v, φ ≠ .returned (.ok v)) :
    CallFresh made ms s n { c with phase := φ } where
  slot slot hφ := h.slot slot (hslot slot hφ)
  owning slot hφ := absurd hφ (howning slot)
  fetching slot hφ := absurd hφ (hfetching slot)
  begun u i hb := ⟨(h.begun u i hb).1, hglobal, fun v hv => absurd hv (hret v)⟩

/-- What is known of the slots stays true while they are not filled and nothing comes into the
    cache. -/
theorem SlotsFresh.snoc {made : Nat → Nat × Nat} {s s' : Session} (h : SlotsFresh made ms s)
    (hannounced : s'.announced = s.announced)
    (hcache : ∀ u slot, s'.cache.get? u = some slot →
      s.cache.get? u = some slot ∧ ¬ Invalidated u x)
    (hkept : SlotsKept s s')
    (hslots : ∀ (slot : Nat) (y' : SettingsSlot), s'.slots[slot]? = some y' →
      ∃ y, s.slots[slot]? = some y ∧ y'.uri = y.uri ∧ y'.result = y.result) :
    SlotsFresh made (ms ++ [x]) s' := by
  refine ⟨?_, fun u slot hu => ?_, fun slot y' r hy' hr => ?_⟩
  · rw [Session.capabilities, hannounced]
    exact h.answers
  · obtain ⟨hold, hx⟩ := hcache u slot hu
    obtain ⟨⟨y, hy, huri⟩, hall⟩ := h.cached u slot hold
    obtain ⟨y', hy', hyy'⟩ := hkept slot y hy
    exact ⟨⟨y', hy', hyy'.trans huri⟩, hall.snoc fun hinv => absurd hinv hx⟩
  · obtain ⟨y, hy, huri, hres⟩ := hslots slot y' hy'
    obtain ⟨j, k, hj, hk, hlt, hmade⟩ := h.filled slot y r hy (hres ▸ hr)
    exact ⟨j, k, huri ▸ hj.snoc x, hk.snoc x, hlt, hmade⟩

/-- The same for a session whose slots stay as they are. -/
theorem SlotsFresh.snoc_of_eq {made : Nat → Nat × Nat} {s s' : Session} (h : SlotsFresh made ms s)
    (hannounced : s'.announced = s.announced) (hslots : s'.slots = s.slots)
    (hcache : ∀ u slot, s'.cache.get? u = some slot →
      s.cache.get? u = some slot ∧ ¬ Invalidated u x) :
    SlotsFresh made (ms ++ [x]) s' :=
  h.snoc hannounced hcache (slotsKept_of_eq hslots)
    fun _ y' hy' => ⟨y', by rw [← hslots]; exact hy', rfl, rfl⟩

/-! ## What steps preserve -/

section Steps

variable {made : Nat → Nat × Nat} {p : SettingsCalls} {e : SettingsEvent} {c : SettingsCall}
  {s' : Session} {φ : CallPhase}

/-- A step that begins no call adds nothing to what is known of beginnings. -/
theorem beginsAt_of_snoc {u : String} (he : ∀ u f b, e ≠ .begin u f b)
    (h : BeginsAt (ms ++ [⟨p, e⟩]) n u i) : BeginsAt ms n u i := by
  rcases h.snoc_cases with hold | ⟨-, -, canceled, hbegin⟩
  · exact hold
  · exact absurd hbegin (he u true canceled)

/-- A call moves on: what is left to show is about the slots and about this call. -/
theorem Provenance.of_move {made' : Nat → Nat × Nat} (h : Provenance made ms p)
    (he : ∀ u f b, e ≠ .begin u f b) (hc : p.calls[n]? = some c) (hkept : SlotsKept p.session s')
    (hmade : ∀ (slot : Nat) (y : SettingsSlot), p.session.slots[slot]? = some y →
      made' slot = made slot)
    (hslots : SlotsFresh made' (ms ++ [⟨p, e⟩]) s')
    (hcall : CallFresh made' (ms ++ [⟨p, e⟩]) s' n c →
      CallFresh made' (ms ++ [⟨p, e⟩]) s' n { c with phase := φ }) :
    Provenance made' (ms ++ [⟨p, e⟩]) (p.move n s' φ) := by
  have old : ∀ k d, p.calls[k]? = some d → CallFresh made' (ms ++ [⟨p, e⟩]) s' k d := by
    intro k d hd
    exact (h.calls k d hd).snoc (fun _ _ => beginsAt_of_snoc he) hkept hmade
  refine ⟨hslots, fun k d hd => ?_, fun k u i hb => ?_⟩
  · by_cases hk : n = k
    · subst hk
      rw [getElem?_move_self s' φ hc] at hd
      exact Option.some.inj hd ▸ hcall (old n c hc)
    · rw [getElem?_move_of_ne s' φ hk] at hd
      exact old k d hd
  · rw [length_move]
    exact h.known k u i (beginsAt_of_snoc he hb)

/-- A call moves on, and the session stays as it is. -/
theorem Provenance.of_move_same (h : Provenance made ms p) (he : ∀ u f b, e ≠ .begin u f b)
    (hinv : ∀ u, ¬ e.Invalidates u) (hc : p.calls[n]? = some c)
    (hcall : CallFresh made (ms ++ [⟨p, e⟩]) p.session n c →
      CallFresh made (ms ++ [⟨p, e⟩]) p.session n { c with phase := φ }) :
    Provenance made (ms ++ [⟨p, e⟩]) (p.move n p.session φ) :=
  h.of_move he hc (slotsKept_of_eq rfl) (fun _ _ _ => rfl)
    (h.slots.snoc_of_eq rfl rfl fun u _ hu => ⟨hu, hinv u⟩) hcall

/-- The session changes, and all calls stay where they are. -/
theorem Provenance.of_session (h : Provenance made ms p) (he : ∀ u f b, e ≠ .begin u f b)
    (hannounced : s'.announced = p.session.announced) (hslots : s'.slots = p.session.slots)
    (hcache : ∀ u slot, s'.cache.get? u = some slot →
      p.session.cache.get? u = some slot ∧ ¬ e.Invalidates u) :
    Provenance made (ms ++ [⟨p, e⟩]) { p with session := s' } where
  slots := h.slots.snoc_of_eq hannounced hslots hcache
  calls k d hd := (h.calls k d hd).snoc (fun _ _ => beginsAt_of_snoc he)
    (slotsKept_of_eq hslots) fun _ _ _ => rfl
  known k u i hb := h.known k u i (beginsAt_of_snoc he hb)

/-- A call begins. One that can ask the client looks its document up. -/
theorem Provenance.of_begin (h : Provenance made ms p) (uri : String) (fetches canceled : Bool) :
    Provenance made (ms ++ [⟨p, .begin uri fetches canceled⟩])
      { p with calls := p.calls ++ [⟨uri, canceled,
          if p.session.capabilities.configuration && fetches then .looking else .global⟩] } := by
  have hslots : SlotsFresh made (ms ++ [⟨p, .begin uri fetches canceled⟩]) p.session :=
    h.slots.snoc_of_eq rfl rfl fun u slot hu => ⟨hu, id⟩
  refine ⟨hslots, fun k d hd => ?_, fun k u i hb => ?_⟩
  · by_cases hk : k < p.calls.length
    · rw [List.getElem?_append_left hk] at hd
      refine (h.calls k d hd).snoc (fun u i hb => ?_) (slotsKept_of_eq rfl) fun _ _ _ => rfl
      rcases hb.snoc_cases with hold | ⟨-, hlen, -⟩
      · exact hold
      · exact absurd hlen (Nat.ne_of_gt hk)
    · -- the call that is new: it has no slot, and of the past only its own beginning is known
      obtain ⟨hlen, hd⟩ : k = p.calls.length ∧ d.phase.slot? = none ∧ d.uri = uri ∧
          (fetches = true → d.phase = .looking) := by
        rw [h.slots.answers] at hd
        have hk' : k = p.calls.length := by
          have := (List.getElem?_eq_some_iff.mp hd).1
          simp only [List.length_append, List.length_singleton] at this
          omega
        rw [hk', List.getElem?_concat_length] at hd
        obtain rfl := Option.some.inj hd
        cases fetches <;> exact ⟨hk', rfl, rfl, by simp⟩
      obtain ⟨hslot, huri, hφ⟩ := hd
      refine ⟨fun slot hs => ?_, fun slot hs => ?_, fun slot hs => ?_, fun u i hb => ?_⟩
      · exact absurd (hslot.symm.trans hs) (by simp)
      · rw [hs] at hslot; exact absurd hslot (by simp [CallPhase.slot?])
      · rw [hs] at hslot; exact absurd hslot (by simp [CallPhase.slot?])
      · rcases hb.snoc_cases with hold | ⟨-, -, b, hbegin⟩
        · exact absurd (h.known k u i hold) hk
        · obtain ⟨rfl, rfl, -⟩ := SettingsEvent.begin.inj hbegin
          rw [hφ rfl]
          exact ⟨huri, by simp, by simp⟩
  · rw [List.length_append, List.length_singleton]
    rcases hb.snoc_cases with hold | ⟨-, hlen, -⟩
    · have := h.known k u i hold
      omega
    · have : p.calls.length = k := hlen
      omega

/-- A call that finds no slot makes one, at this very moment. -/
theorem Provenance.of_miss (h : Provenance made ms p) (hc : p.calls[n]? = some c) :
    Provenance (Function.update made p.session.slots.length (n, ms.length))
      (ms ++ [⟨p, .lookUp n⟩])
      (p.move n (p.session.withSlot c.uri) (.owning p.session.slots.length)) := by
  -- the slot is new, so nothing was known of its number
  have hold : ∀ (slot : Nat) (y : SettingsSlot), p.session.slots[slot]? = some y →
      Function.update made p.session.slots.length (n, ms.length) slot = made slot := by
    intro slot y hy
    obtain ⟨hlt, -⟩ := List.getElem?_eq_some_iff.mp hy
    exact Function.update_of_ne (Nat.ne_of_lt hlt) _ _
  have hkept : SlotsKept p.session (p.session.withSlot c.uri) := by
    intro slot y hy
    obtain ⟨hlt, -⟩ := List.getElem?_eq_some_iff.mp hy
    exact ⟨y, by simpa [Session.withSlot, List.getElem?_append_left hlt] using hy, rfl⟩
  have hnew : (p.session.withSlot c.uri).slots[p.session.slots.length]? =
      some { uri := c.uri } := by
    simp [Session.withSlot]
  refine h.of_move (by simp) hc hkept hold ⟨h.slots.answers, fun u slot hu => ?_,
    fun slot y r hy hr => ?_⟩ fun hcall => ⟨fun slot hs => ?_, fun slot hs => ?_, fun slot hs => ?_,
    fun u i hb => ⟨(hcall.begun u i hb).1, by simp, by simp⟩⟩
  · by_cases hu' : u = c.uri
    · subst hu'
      obtain rfl : p.session.slots.length = slot := by simpa [Session.withSlot] using hu
      rw [Function.update_self]
      exact ⟨⟨_, hnew, rfl⟩, allBefore_now.snoc fun hinv => hinv.elim⟩
    · rw [Session.withSlot, Table.get?_put_of_ne _ _ hu'] at hu
      obtain ⟨⟨y, hy, hyu⟩, hall⟩ := h.slots.cached u slot hu
      obtain ⟨y', hy', hyy'⟩ := hkept slot y hy
      rw [hold slot y hy]
      exact ⟨⟨y', hy', hyy'.trans hyu⟩, hall.snoc fun hinv => hinv.elim⟩
  · by_cases hlt : slot < p.session.slots.length
    · rw [Session.withSlot, List.getElem?_append_left hlt] at hy
      rw [hold slot y hy]
      obtain ⟨j, k, hj, hk, hjk, hmade⟩ := h.slots.filled slot y r hy hr
      exact ⟨j, k, hj.snoc _, hk.snoc _, hjk, hmade⟩
    · -- the slot that is new is empty
      have hlen := (List.getElem?_eq_some_iff.mp hy).1
      simp only [Session.withSlot, List.length_append, List.length_singleton] at hlen
      obtain rfl : slot = p.session.slots.length := by omega
      obtain rfl : { uri := c.uri } = y := Option.some.inj (hnew.symm.trans hy)
      exact absurd hr (by simp)
  · obtain rfl : p.session.slots.length = slot := Option.some.inj hs
    refine ⟨⟨_, hnew, rfl⟩, fun u i hb => ?_⟩
    rw [Function.update_self]
    exact allBefore_take i (allBefore_now.snoc fun hinv => hinv.elim)
  · obtain rfl : p.session.slots.length = slot := CallPhase.owning.inj hs
    rw [Function.update_self, List.length_append, List.length_singleton]
    exact ⟨rfl, Nat.lt_succ_self _⟩
  · exact absurd hs (by simp)

/-- The client's answer goes into the slot that the call has made. -/
theorem Provenance.of_endFetch {slot : Nat} (r : SettingsResult) (h : Provenance made ms p)
    (hc : p.calls[n]? = some c) (hφ : c.phase = .fetching slot) :
    Provenance made (ms ++ [⟨p, .endFetch n r⟩])
      (p.move n (p.session.fill slot r) (if r.isOk then .closing slot else .failed slot)) := by
  have hkept : SlotsKept p.session (p.session.fill slot r) := by
    intro k y hy
    refine ⟨if slot = k then { y with result := some r } else y, ?_, by split <;> rfl⟩
    simp [Session.fill, List.getElem?_modify, hy]
  obtain ⟨hn, j, hj, hmade⟩ := (h.calls n c hc).fetching slot hφ
  refine h.of_move (by simp) hc hkept (fun _ _ _ => rfl) ⟨h.slots.answers, fun u k hu => ?_,
    fun k y v hy hv => ?_⟩ fun hcall => ?_
  · obtain ⟨⟨y, hy, hyu⟩, hall⟩ := h.slots.cached u k hu
    obtain ⟨y', hy', hyy'⟩ := hkept k y hy
    exact ⟨⟨y', hy', hyy'.trans hyu⟩, hall.snoc fun hinv => hinv.elim⟩
  · obtain ⟨y₀, hy₀, hy⟩ : ∃ y₀, p.session.slots[k]? = some y₀ ∧
        (if slot = k then { y₀ with result := some r } else y₀) = y := by
      simpa [Session.fill, List.getElem?_modify, Option.map_eq_some_iff] using hy
    -- the slot that is filled now, or one that was filled before
    by_cases hk : slot = k
    · subst hk
      obtain ⟨⟨y₁, hy₁, huri⟩, -⟩ := (h.calls n c hc).slot slot (by rw [hφ]; rfl)
      obtain rfl : y₀ = y₁ := Option.some.inj (hy₀.symm.trans hy₁)
      rw [if_pos rfl] at hy
      subst hy
      obtain rfl : r = v := Option.some.inj hv
      refine ⟨j, ms.length, ?_, ⟨p, ?_⟩, ?_, hmade⟩
      · rw [hn]
        exact huri ▸ hj.snoc _
      · rw [hn]
        exact List.getElem?_concat_length
      · obtain ⟨_, _, hjlt, -⟩ := hj
        exact lt_length_of_getElem? hjlt
    · rw [if_neg hk] at hy
      subst hy
      obtain ⟨i, l, hi, hl, hil, hm⟩ := h.slots.filled k y₀ v hy₀ hv
      exact ⟨i, l, hi.snoc _, hl.snoc _, hil, hm⟩
  · -- the call keeps its slot, whether it goes on to take it out of the cache or to open it
    split
    · exact hcall.goOn (by simp [hφ, CallPhase.slot?]) (by simp) (by simp) (by simp) (by simp)
    · exact hcall.goOn (by simp [hφ, CallPhase.slot?]) (by simp) (by simp) (by simp) (by simp)

/-- A call that takes settings from its slot returns fresh ones. -/
theorem CallFresh.take {slot : Nat} {own : Bool} {r : SettingsResult} {s : Session}
    (h : CallFresh made ms s n c) (hs : SlotsFresh made ms s) (hφ : c.phase = .waiting slot own)
    (hr : s.result? slot = some r) : CallFresh made ms s n { c with phase := .returned r } := by
  refine ⟨by simp [CallPhase.slot?], by simp, by simp, fun u i hb => ?_⟩
  obtain ⟨huri, -, -⟩ := h.begun u i hb
  refine ⟨huri, by simp, fun v hv => ?_⟩
  obtain rfl : r = .ok v := CallPhase.returned.inj hv
  obtain ⟨⟨y, hy, hyu⟩, hall⟩ := h.slot slot (by rw [hφ]; rfl)
  obtain ⟨y', hy', -, hres⟩ := Session.slot_of_result? hr
  obtain rfl : y = y' := Option.some.inj (hy.symm.trans hy')
  obtain ⟨j, k, hj, hk, hjk, hmade⟩ := hs.filled slot y _ hy hres
  have huy : y.uri = u := hyu.trans huri
  -- invalid, then the slot, then the request: each comes before the next
  refine ⟨_, j, k, huy ▸ hj, hk, hjk, fun l m hl hinv => ?_⟩
  exact Nat.lt_trans (hall u i hb l m hl hinv) hmade

/-- **What one step preserves**: who made which slot stays known, up to a slot that is made in the
    step. -/
theorem Provenance.step {p' : SettingsCalls} (h : Provenance made ms p)
    (hstep : p.step e = some p') : ∃ made', Provenance made' (ms ++ [⟨p, e⟩]) p' := by
  cases effect_of_step hstep with
  | begin uri fetches canceled => exact ⟨made, h.of_begin uri fetches canceled⟩
  | takeGlobal n c hc hφ =>
    refine ⟨made, h.of_move_same (by simp) (fun _ => id) hc fun hcall => ?_⟩
    exact ⟨by simp [CallPhase.slot?], by simp, by simp,
      fun u i hb => absurd hφ (hcall.begun u i hb).2.1⟩
  | miss n c hc hφ hmiss => exact ⟨_, h.of_miss hc⟩
  | hit n c slot hc hφ hhit =>
    refine ⟨made, h.of_move_same (by simp) (fun _ => id) hc fun hcall => ?_⟩
    -- a slot in the cache is younger than all invalidations of its document
    obtain ⟨hy, hall⟩ := h.slots.cached c.uri slot hhit
    refine ⟨fun k hk => ?_, by simp, by simp,
      fun u i hb => ⟨(hcall.begun u i hb).1, by simp, by simp⟩⟩
    obtain rfl : slot = k := Option.some.inj hk
    refine ⟨hy, fun u i hb => ?_⟩
    obtain ⟨rfl, -⟩ := hcall.begun u i hb
    exact allBefore_take i (hall.snoc fun hinv => hinv.elim)
  | startFetch n c slot hc hφ =>
    refine ⟨made, h.of_move_same (by simp) (fun _ => id) hc fun hcall => ?_⟩
    obtain ⟨hn, hlt⟩ := (h.calls n c hc).owning slot hφ
    refine ⟨fun k hk => hcall.slot k (by rw [hφ]; exact hk), by simp, fun k hk => ?_,
      fun u i hb => ⟨(hcall.begun u i hb).1, by simp, by simp⟩⟩
    obtain rfl : slot = k := CallPhase.fetching.inj hk
    exact ⟨hn, ms.length, ⟨p, c, List.getElem?_concat_length, hc, rfl⟩, hlt⟩
  | endFetch n r c slot hc hφ => exact ⟨made, h.of_endFetch r hc hφ⟩
  | discard n c slot hc hφ =>
    refine ⟨made, h.of_move (by simp) hc (slotsKept_of_eq (Session.discard_slots _ _ _))
      (fun _ _ _ => rfl) (h.slots.snoc_of_eq (Session.discard_announced _ _ _)
      (Session.discard_slots _ _ _) fun u k hu => ⟨Session.get?_of_discard hu, id⟩) fun hcall => ?_⟩
    exact hcall.goOn (by simp [hφ, CallPhase.slot?]) (by simp) (by simp) (by simp) (by simp)
  | complete n c slot hc hφ =>
    have hkept : SlotsKept p.session (p.session.complete slot) := by
      intro k y hy
      exact ⟨_, by rw [Session.getElem?_complete, hy]; rfl, by split <;> rfl⟩
    refine ⟨made, h.of_move (by simp) hc hkept (fun _ _ _ => rfl)
      (h.slots.snoc rfl (fun u k hu => ⟨hu, id⟩) hkept fun k y' hy' => ?_) fun hcall => ?_⟩
    · rw [Session.getElem?_complete] at hy'
      obtain ⟨y, hy, rfl⟩ := Option.map_eq_some_iff.mp hy'
      exact ⟨y, hy, by split <;> rfl, by split <;> rfl⟩
    · exact hcall.goOn (by simp [hφ, CallPhase.slot?]) (by simp) (by simp) (by simp) (by simp)
  | take n c slot own r hc hφ hr =>
    refine ⟨made, h.of_move_same (by simp) (fun _ => id) hc fun hcall => ?_⟩
    exact hcall.take (h.slots.snoc_of_eq rfl rfl fun u _ hu => ⟨hu, id⟩) hφ hr
  | retry n c slot f hc hφ hr hcanceled hf =>
    refine ⟨made, h.of_move_same (by simp) (fun _ => id) hc fun hcall => ?_⟩
    exact hcall.goOn (by simp [CallPhase.slot?]) (by simp) (by simp) (by simp) (by simp)
  | giveUp n c slot own hc hφ hcanceled =>
    refine ⟨made, h.of_move_same (by simp) (fun _ => id) hc fun hcall => ?_⟩
    exact hcall.goOn (by simp [CallPhase.slot?]) (by simp) (by simp) (by simp) (by simp)
  | cancel n =>
    have hslots : SlotsFresh made (ms ++ [⟨p, .cancel n⟩]) p.session :=
      h.slots.snoc_of_eq rfl rfl fun u _ hu => ⟨hu, id⟩
    refine ⟨made, hslots, fun k d hd => ?_, fun k u i hb => ?_⟩
    · obtain ⟨c, hc, rfl⟩ : ∃ c, p.calls[k]? = some c ∧
          (if n = k then { c with canceled := true } else c) = d := by
        simpa [List.getElem?_modify, Option.map_eq_some_iff] using hd
      have hcall := (h.calls k c hc).snoc
        (fun _ _ => beginsAt_of_snoc (p := p) (e := .cancel n) (by simp))
        (slotsKept_of_eq rfl) fun _ _ _ => rfl
      split
      · exact ⟨hcall.slot, hcall.owning, hcall.fetching, hcall.begun⟩
      · exact hcall
    · rw [List.length_modify]
      exact h.known k u i (beginsAt_of_snoc (by simp) hb)
  -- the place of the document is empty after this, and that is all that can go wrong
  | forget uri =>
    refine ⟨made, h.of_session (by simp) rfl rfl fun u slot hu => ?_⟩
    by_cases huri : u = uri
    · subst huri; exact absurd hu (by simp [Session.forget])
    · rw [Session.forget, Table.get?_erase_of_ne _ huri] at hu
      exact ⟨hu, fun h => huri h.symm⟩
  | reset settings =>
    refine ⟨made, h.of_session (by simp) (Session.reset_announced _ _) (Session.reset_slots _ _)
      fun u slot hu => ?_⟩
    rw [Session.reset_cache] at hu
    exact absurd hu (by simp)
  | announce caps =>
    -- the client has announced itself before, or it could not be asked
    have hsome : p.session.announced.isSome = true := by
      have := h.slots.answers
      cases ha : p.session.announced with
      | none => rw [Session.capabilities, ha] at this; exact absurd this (by decide)
      | some _ => rfl
    have hsame : p.session.announce caps = p.session := by simp [Session.announce, hsome]
    rw [hsame]
    exact ⟨made, h.of_session (by simp) rfl rfl fun u slot hu => ⟨hu, id⟩⟩

end Steps

/-! ## Whole courses -/

/-- A session with a client that has announced its features, before any call. -/
def opening (caps : Capabilities) (global : Settings) : SettingsCalls :=
  { session := { announced := some caps, global := global } }

section Courses

variable {caps : Capabilities} {global : Settings} {p : SettingsCalls}

/-- No call of a course asks twice. -/
theorem askedOnce_of_course (h : Course step (opening caps global) ms p) : AskedOnce ms p := by
  induction h with
  | nil =>
    have hnone : ∀ {n u j}, ¬ AsksAt [] n u j := fun ⟨_, _, hj, _⟩ => by simp at hj
    exact ⟨fun n j u hj => absurd hj hnone, fun n i j u v hi _ => absurd hi hnone⟩
  | snoc _ hstep ih => exact ih.step hstep

/-- It is known of every slot of a course who made it, and when. -/
theorem provenance_of_course (hcaps : caps.configuration = true)
    (h : Course step (opening caps global) ms p) : ∃ made, Provenance made ms p := by
  induction h with
  | nil =>
    refine ⟨fun _ => (0, 0), ⟨hcaps, ?_, ?_⟩, ?_, ?_⟩
    · simp [opening]
    · simp [opening]
    · simp [opening]
    · rintro n u i ⟨_, _, hi, -⟩
      exact absurd hi (by simp)
  | snoc _ hstep ih =>
    obtain ⟨made, hmade⟩ := ih
    exact hmade.step hstep

/-- **Settings are fresh.** Let calls for settings, closings of documents and changes of the
    settings for all documents interleave in any way, with a client that can be asked. When a call
    that began at the time `i` returns settings, then the client gave these settings for the
    document of the call, and it was asked after every invalidation of the document's settings that
    came before the call. -/
theorem returned_settings_fresh {v : Settings} (hcaps : caps.configuration = true)
    (h : Course step (opening caps global) ms p) (hbegin : BeginsAt ms n uri i)
    (hret : p.returned? n = some (.ok v)) :
    ∃ m j k, Fetch ms m uri (.ok v) j k ∧ AllBefore (Invalidated uri) (ms.take i) j := by
  obtain ⟨made, hmade⟩ := provenance_of_course hcaps h
  obtain ⟨c, hc, hφ⟩ : ∃ c, p.calls[n]? = some c ∧ c.phase = .returned (.ok v) := by
    unfold returned? at hret
    split at hret
    · obtain ⟨c, hc, hφ⟩ := phase?_eq_some ‹_›
      exact ⟨c, hc, by rw [hφ, Option.some.inj hret]⟩
    · exact absurd hret (by simp)
  obtain ⟨m, j, k, hj, hk, hjk, hall⟩ := ((hmade.calls n c hc).begun uri i hbegin).2.2 v hφ
  exact ⟨m, j, k, ⟨hj, hk, hjk, fun l u hl => (askedOnce_of_course h).once m l j u uri hl hj⟩, hall⟩

end Courses

/-- A document is closed while the client is asked for its settings, and a call that begins after
    that has the client asked once more. -/
def closedWhileAsked : List SettingsEvent :=
  [.begin "a" true false, .lookUp 0, .startFetch 0, .begin "a" true false, .lookUp 1, .forget "a",
    .begin "a" true false, .lookUp 2, .startFetch 2, .endFetch 0 (.ok { lintOffset := 1 }),
    .complete 0, .wake 1, .endFetch 2 (.ok { lintOffset := 2 }), .complete 2, .wake 2]

/-- The call that begins after the closing gets the second answer. -/
theorem returned_settings_fresh_closedWhileAsked :
    ∃ m j k,
      Fetch (Course.moments step (opening { configuration := true } {}) closedWhileAsked) m "a"
        (.ok { lintOffset := 2 }) j k ∧
      AllBefore (Invalidated "a")
        ((Course.moments step (opening { configuration := true } {}) closedWhileAsked).take 6) j :=
  returned_settings_fresh (n := 2) rfl (Course.of_events closedWhileAsked rfl) ⟨_, _, rfl, rfl⟩ rfl

end SettingsCalls
end MarkupLint
