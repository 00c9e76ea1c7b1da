/-
  The client is asked for the settings of a document no more often than it has to be: once, and once
  more for each time that the settings become invalid or that asking fails.

  The bound is kept by counting credit. Each invalidation of a document and each failed request for
  it gives one credit, and so does the slot that the document has in the cache. A call that starts
  to ask spends one. Two kinds of calls have a credit put aside (`reserves`): one that has made a
  slot and is about to ask, which has it from the place that the slot took in the cache, and one
  that got a failure, which gives it back when it takes its slot out of the cache. The sum never
  falls short (`Covered`), and a document has at most one slot in the cache.
-/
import MarkupLint.Proofs.SettingsFreshness
import MarkupLint.Proofs.SettingsOwners

namespace MarkupLint

instance decidableInvalidates (uri : String) : DecidablePred (SettingsEvent.Invalidates uri)
  | .forget u => inferInstanceAs (Decidable (u = uri))
  | .reset _ => isTrue trivial
  | .begin .. | .takeGlobal .. | .lookUp .. | .startFetch .. | .endFetch .. | .discard .. =>
    isFalse id
  | .complete .. | .wake .. | .giveUp .. | .cancel .. | .announce .. => isFalse id

namespace SettingsCalls

/-! ## What is counted -/

/-- The call of number `n` is about a document. -/
def isAbout (p : SettingsCalls) (uri : String) (n : Nat) : Bool :=
  p.calls[n]?.any fun c => c.uri = uri

/-- A call starts to ask the client for the settings of a document. -/
def asksFor (uri : String) (x : Instant) : Bool :=
  match x.event with
  | .startFetch n => x.state.isAbout uri n
  | _ => false

/-- A request for the settings of a document ends with a failure. -/
def failsFor (uri : String) (x : Instant) : Bool :=
  match x.event with
  | .endFetch n (.error _) => x.state.isAbout uri n
  | _ => false

/-- How often the client has been asked for the settings of a document. -/
def asked (uri : String) (ms : List Instant) : Nat := ms.countP (asksFor uri)

/-- How many requests for the settings of a document have failed. -/
def failed (uri : String) (ms : List Instant) : Nat := ms.countP (failsFor uri)

/-- How often the settings of a document have become invalid. -/
def invalidations (uri : String) (ms : List Instant) : Nat :=
  ms.countP fun x => decide (x.event.Invalidates uri)

/-- The slots of a document in the cache: one or none. -/
def cachedSlots (uri : String) (s : Session) : Nat := (s.cache.get? uri).toList.length

/-- The call has a credit put aside: it is about to ask, or is about to take a failure out of the
    cache. -/
def reserves (uri : String) (c : SettingsCall) : Bool :=
  match c.phase with
  | .owning _ | .failed _ => c.uri = uri
  | _ => false

/-- What has been asked, and what is put aside, is covered. -/
def Covered (uri : String) (ms : List Instant) (p : SettingsCalls) : Prop :=
  asked uri ms + p.calls.countP (reserves uri) ≤
    cachedSlots uri p.session + invalidations uri ms + failed uri ms

/-- The cache holds one slot for a document at most. -/
theorem cachedSlots_le_one (uri : String) (s : Session) : cachedSlots uri s ≤ 1 := by
  unfold cachedSlots
  cases s.cache.get? uri <;> simp

/-! ## One step -/

section Steps

variable {ms : List Instant} {p : SettingsCalls} {e : SettingsEvent} {s' : Session} {uri : String}
  {n : Nat} {c : SettingsCall} {φ : CallPhase}

theorem asked_snoc (x : Instant) :
    asked uri (ms ++ [x]) = asked uri ms + if asksFor uri x then 1 else 0 := by
  simp [asked, List.countP_append, List.countP_singleton]

theorem failed_snoc (x : Instant) :
    failed uri (ms ++ [x]) = failed uri ms + if failsFor uri x then 1 else 0 := by
  simp [failed, List.countP_append, List.countP_singleton]

theorem invalidations_snoc (x : Instant) :
    invalidations uri (ms ++ [x]) =
      invalidations uri ms + if x.event.Invalidates uri then 1 else 0 := by
  simp [invalidations, List.countP_append, List.countP_singleton]

/-- Only an event that starts a request asks. -/
theorem asksFor_eq_false (hask : ∀ m, e ≠ .startFetch m) : asksFor uri ⟨p, e⟩ = false := by
  unfold asksFor
  split
  · exact absurd ‹_› (hask _)
  · rfl

theorem isAbout_of_getElem? (hc : p.calls[n]? = some c) :
    p.isAbout uri n = decide (c.uri = uri) := by
  simp [isAbout, hc]

/-- A step is covered if what it asks and puts aside is made up for by what leaves the account on
    this side, and by what it adds to the cache, the invalidations and the failures. -/
theorem Covered.of_move (h : Covered uri ms p) (hc : p.calls[n]? = some c)
    (hstep : (if asksFor uri ⟨p, e⟩ then 1 else 0) +
        (if reserves uri { c with phase := φ } then 1 else 0) + cachedSlots uri p.session ≤
      cachedSlots uri s' + (if failsFor uri ⟨p, e⟩ then 1 else 0) +
        if reserves uri c then 1 else 0) :
    Covered uri (ms ++ [⟨p, e⟩]) (p.move n s' φ) := by
  -- one call changes, so the count of what is put aside changes by that call
  have hcount := countP_modify (P := reserves uri) (f := fun c => { c with phase := φ }) hc
  unfold Covered at h ⊢
  rw [asked_snoc, failed_snoc, invalidations_snoc]
  show _ + List.countP _ (p.calls.modify n _) ≤ _
  simp only [move]
  omega

/-- A call moves on in a step that is of no account: it asks nothing, and has nothing put aside. -/
theorem Covered.of_free_move (h : Covered uri ms p) (hc : p.calls[n]? = some c)
    (hask : ∀ m, e ≠ .startFetch m) (hbefore : reserves uri c = false)
    (hafter : reserves uri { c with phase := φ } = false)
    (hcache : cachedSlots uri s' = cachedSlots uri p.session) :
    Covered uri (ms ++ [⟨p, e⟩]) (p.move n s' φ) := by
  refine h.of_move hc ?_
  rw [asksFor_eq_false hask, hbefore, hafter, hcache]
  simp

/-- All calls stay where they are. What leaves the cache is invalidated. -/
theorem Covered.of_session {calls : List SettingsCall} (h : Covered uri ms p)
    (hask : ∀ m, e ≠ .startFetch m)
    (hcalls : calls.countP (reserves uri) = p.calls.countP (reserves uri))
    (hcache : cachedSlots uri p.session ≤
      cachedSlots uri s' + if e.Invalidates uri then 1 else 0) :
    Covered uri (ms ++ [⟨p, e⟩]) ⟨s', calls⟩ := by
  unfold Covered at h ⊢
  rw [asked_snoc, failed_snoc, invalidations_snoc, asksFor_eq_false hask, hcalls]
  simp only [Bool.false_eq_true, if_false]
  omega

/-- Only the document of a slot that is taken out of the cache loses its slot. -/
theorem cachedSlots_discard (uri : String) (s : Session) (u : String) (slot : Nat) :
    cachedSlots uri s ≤ cachedSlots uri (s.discard u slot) + if u = uri then 1 else 0 := by
  have hone := cachedSlots_le_one uri s
  by_cases hu : u = uri
  · rw [if_pos hu]
    omega
  · have hsame : cachedSlots uri (s.discard u slot) = cachedSlots uri s := by
      unfold cachedSlots Session.discard
      split
      · rw [Table.get?_erase_of_ne _ (Ne.symm hu)]
      · rfl
    omega

/-- **What one step preserves**: whatever has been asked is covered. -/
theorem Covered.step {p' : SettingsCalls} (h : Covered uri ms p) (hstep : p.step e = some p') :
    Covered uri (ms ++ [⟨p, e⟩]) p' := by
  cases effect_of_step hstep with
  | startFetch n c slot hc hφ =>
    -- the credit that was put aside is spent
    refine h.of_move hc ?_
    simp [asksFor, failsFor, reserves, hφ, isAbout_of_getElem? hc, Nat.add_comm]
  | miss n c hc hφ hmiss =>
    -- the new slot in the cache pays for the request that is to come
    refine h.of_move hc ?_
    simp only [asksFor, failsFor, reserves, hφ, cachedSlots, Session.withSlot]
    by_cases hu : c.uri = uri
    · subst hu
      simp [hmiss]
    · simp [hu, Table.get?_put_of_ne _ _ (Ne.symm hu)]
  | endFetch n r c slot hc hφ =>
    -- a failure is put aside for the slot that will have to leave the cache
    refine h.of_move hc ?_
    cases r with
    | ok v =>
      simp [asksFor, failsFor, reserves, hφ, cachedSlots, Session.fill, Except.isOk, Except.toBool]
    | error f =>
      simp [asksFor, failsFor, reserves, hφ, cachedSlots, Session.fill, isAbout_of_getElem? hc,
        Except.isOk, Except.toBool, Nat.add_comm]
  -- what was put aside for the failure makes up for the slot that leaves
  | discard n c slot hc hφ =>
    refine h.of_move hc ?_
    have hcache := cachedSlots_discard uri p.session c.uri slot
    simpa [asksFor, failsFor, reserves, hφ] using hcache
  | begin u fetches canceled =>
    refine h.of_session (by simp) ?_ (Nat.le_add_right _ _)
    rw [List.countP_append, List.countP_singleton]
    split <;> simp [reserves]
  | cancel n =>
    refine h.of_session (by simp) ?_ (Nat.le_add_right _ _)
    cases hc : p.calls[n]? with
    | none => rw [List.modify_eq_self (by simpa using hc)]
    | some c =>
      have hcount :=
        countP_modify (P := reserves uri) (f := fun c => { c with canceled := true }) hc
      have hsame : reserves uri { c with canceled := true } = reserves uri c := rfl
      rw [hsame] at hcount
      omega
  -- the invalidation makes up for the slot that leaves, if there was one
  | forget u =>
    refine h.of_session (by simp) rfl ?_
    by_cases hu : u = uri
    · rw [if_pos (show SettingsEvent.Invalidates uri (.forget u) from hu)]
      exact Nat.le_add_left_of_le (cachedSlots_le_one uri p.session)
    · simp [cachedSlots, Session.forget, Table.get?_erase_of_ne _ (Ne.symm hu)]
  | reset settings =>
    refine h.of_session (by simp) rfl ?_
    rw [if_pos (show SettingsEvent.Invalidates uri (.reset settings) from trivial)]
    exact Nat.le_add_left_of_le (cachedSlots_le_one uri p.session)
  | announce caps =>
    refine h.of_session (by simp) rfl ?_
    unfold Session.announce
    split <;> exact Nat.le_add_right _ _
  | takeGlobal n c hc hφ => exact h.of_free_move hc (by simp) (by simp [reserves, hφ]) rfl rfl
  | hit n c slot hc hφ hhit => exact h.of_free_move hc (by simp) (by simp [reserves, hφ]) rfl rfl
  | complete n c slot hc hφ => exact h.of_free_move hc (by simp) (by simp [reserves, hφ]) rfl rfl
  | take n c slot own r hc hφ hr =>
    exact h.of_free_move hc (by simp) (by simp [reserves, hφ]) rfl rfl
  | retry n c slot f hc hφ hr hcanceled hf =>
    exact h.of_free_move hc (by simp) (by simp [reserves, hφ]) rfl rfl
  | giveUp n c slot own hc hφ hcanceled =>
    exact h.of_free_move hc (by simp) (by simp [reserves, hφ]) rfl rfl

end Steps

/-! ## A client that cannot be asked -/

/-- As long as the client has not said that it can be asked: no call looks for settings of single
    documents, and there are none. -/
structure Unasked (ms : List Instant) (p : SettingsCalls) : Prop where
  silent : ∀ x ∈ ms, ∀ n, x.event ≠ .startFetch n
  cache : p.session.cache = []
  calls : ∀ c ∈ p.calls, c.phase = .global ∨ ∃ r, c.phase = .returned r

section Unasked

variable {ms : List Instant} {p p' : SettingsCalls} {e : SettingsEvent}

/-- Announcements count once, so a client that can be asked stays one. -/
theorem configuration_of_step (hstep : p.step e = some p')
    (h : p'.session.capabilities.configuration = false) :
    p.session.capabilities.configuration = false := by
  have hsame : ∀ {s s' : Session}, s'.announced = s.announced →
      s'.capabilities.configuration = false → s.capabilities.configuration = false := by
    intro s s' hs hs'
    rwa [Session.capabilities, hs] at hs'
  cases effect_of_step hstep with
  | announce caps =>
    cases ha : p.session.announced with
    | none => rw [Session.capabilities, ha]; rfl
    | some c => exact hsame (by simp [Session.announce, ha]) h
  | discard n c slot hc hφ => exact hsame (Session.discard_announced _ _ _) h
  | reset settings => exact hsame (Session.reset_announced _ _) h
  | begin uri fetches canceled => exact h
  | takeGlobal n c hc hφ => exact h
  | miss n c hc hφ hmiss => exact h
  | hit n c slot hc hφ hhit => exact h
  | startFetch n c slot hc hφ => exact h
  | endFetch n r c slot hc hφ => exact h
  | complete n c slot hc hφ => exact h
  | take n c slot own r hc hφ hr => exact h
  | retry n c slot f hc hφ hr hcanceled hf => exact h
  | giveUp n c slot own hc hφ hcanceled => exact h
  | cancel n => exact h
  | forget uri => exact h

/-- A step in which nobody asks, and nothing comes into the cache. -/
theorem Unasked.of_quiet {s' : Session} {calls : List SettingsCall} (h : Unasked ms p)
    (he : ∀ n, e ≠ .startFetch n) (hcache : s'.cache = [])
    (hcalls : ∀ c ∈ calls, c.phase = .global ∨ ∃ r, c.phase = .returned r) :
    Unasked (ms ++ [⟨p, e⟩]) ⟨s', calls⟩ := by
  refine ⟨?_, hcache, hcalls⟩
  intro x hx
  rcases List.mem_append.mp hx with hx | hx
  · exact h.silent x hx
  · rw [List.mem_singleton] at hx
    subst hx
    exact he

/-- A call that stands anywhere but at its beginning or end is none of a client that cannot be
    asked. -/
theorem Unasked.not_under_way (h : Unasked ms p) {n : Nat} {c : SettingsCall}
    (hc : p.calls[n]? = some c) (hglobal : c.phase ≠ .global) (hret : ∀ r, c.phase ≠ .returned r) :
    False := by
  rcases h.calls c (List.mem_of_getElem? hc) with hφ | ⟨r, hφ⟩
  · exact hglobal hφ
  · exact hret r hφ

/-- **What one step preserves**: calls take the settings for all documents, and end. -/
theorem Unasked.step (h : Unasked ms p) (hstep : p.step e = some p')
    (hcaps : p.session.capabilities.configuration = false) : Unasked (ms ++ [⟨p, e⟩]) p' := by
  cases effect_of_step hstep with
  | begin uri fetches canceled =>
    refine h.of_quiet (by simp) h.cache ?_
    intro c hc
    rcases List.mem_append.mp hc with hc | hc
    · exact h.calls c hc
    · rw [List.mem_singleton] at hc
      subst hc
      exact .inl (by simp [hcaps])
  | takeGlobal n c hc hφ =>
    exact h.of_quiet (by simp) h.cache (forall_mem_modify h.calls fun _ _ => .inr ⟨_, rfl⟩)
  | cancel n =>
    exact h.of_quiet (by simp) h.cache (forall_mem_modify h.calls h.calls)
  | forget uri =>
    exact h.of_quiet (by simp) (by simp [Session.forget, h.cache, Table.erase]) h.calls
  | reset settings => exact h.of_quiet (by simp) (Session.reset_cache _ _) h.calls
  | announce caps =>
    refine h.of_quiet (by simp) ?_ h.calls
    unfold Session.announce
    split <;> exact h.cache
  -- from here on a call would have to have looked its document up
  | miss n c hc hφ hmiss => exact (h.not_under_way hc (by simp [hφ]) (by simp [hφ])).elim
  | hit n c slot hc hφ hhit => exact (h.not_under_way hc (by simp [hφ]) (by simp [hφ])).elim
  | startFetch n c slot hc hφ => exact (h.not_under_way hc (by simp [hφ]) (by simp [hφ])).elim
  | endFetch n r c slot hc hφ => exact (h.not_under_way hc (by simp [hφ]) (by simp [hφ])).elim
  | discard n c slot hc hφ => exact (h.not_under_way hc (by simp [hφ]) (by simp [hφ])).elim
  | complete n c slot hc hφ => exact (h.not_under_way hc (by simp [hφ]) (by simp [hφ])).elim
  | take n c slot own r hc hφ hr => exact (h.not_under_way hc (by simp [hφ]) (by simp [hφ])).elim
  | retry n c slot f hc hφ hr hcanceled hf =>
    exact (h.not_under_way hc (by simp [hφ]) (by simp [hφ])).elim
  | giveUp n c slot own hc hφ hcanceled =>
    exact (h.not_under_way hc (by simp [hφ]) (by simp [hφ])).elim

end Unasked

/-! ## Whole courses -/

section Courses

variable {ms : List Instant} {p : SettingsCalls}

/-- Whatever has been asked in a course is covered. -/
theorem covered_of_course (h : Course step {} ms p) (uri : String) : Covered uri ms p := by
  induction h with
  | nil => exact Nat.zero_le _
  | snoc _ hstep ih => exact ih.step hstep

/-- The client has not said that it can be asked, so it could not be before, either. -/
theorem unasked_of_course (h : Course step {} ms p)
    (hcaps : p.session.capabilities.configuration = false) : Unasked ms p := by
  induction h with
  | nil => exact ⟨by simp, rfl, by simp⟩
  | snoc _ hstep ih =>
    have hbefore := configuration_of_step hstep hcaps
    exact (ih hbefore).step hstep hbefore

/-- **Single flight.** Let calls for settings, closings of documents and changes of the settings for
    all documents interleave in any way. At every point the client has been asked for the settings
    of a document at most once, and once more for each invalidation of these settings and each
    request that has failed. At most one call waits for the client on behalf of the slot that the
    document has in the cache. A client that cannot be asked is never asked, and nothing is
    cached. -/
theorem single_flight (h : Course step {} ms p) (uri : String) :
    asked uri ms ≤ 1 + invalidations uri ms + failed uri ms ∧
    (∀ (n m slot : Nat), p.session.cache.get? uri = some slot → p.phase? n = some (.fetching slot) →
      p.phase? m = some (.fetching slot) → n = m) ∧
    (p.session.capabilities.configuration = false →
      (∀ x ∈ ms, ∀ n, x.event ≠ .startFetch n) ∧ p.session.cache = []) := by
  refine ⟨?_, ?_, ?_⟩
  · have hcovered : Covered uri ms p := covered_of_course h uri
    have hone := cachedSlots_le_one uri p.session
    unfold Covered at hcovered
    omega
  · intro n m slot _ hn hm
    obtain ⟨c, hc, hcφ⟩ := phase?_eq_some hn
    obtain ⟨d, hd, hdφ⟩ := phase?_eq_some hm
    exact (orderly_of_course h).alone n m c d slot hc hd (by rw [hcφ]; rfl) (by rw [hdφ]; rfl)
  · intro hcaps
    have hunasked := unasked_of_course h hcaps
    exact ⟨hunasked.silent, hunasked.cache⟩

end Courses

/-- A document is closed while the client is asked for its settings, and asked for anew. Both calls
    wait for the client, and only the second one has its slot in the cache. -/
def askedAnew : List SettingsEvent :=
  [.announce { configuration := true }, .begin "a" true false, .lookUp 0, .startFetch 0,
    .forget "a", .begin "a" true false, .lookUp 1, .startFetch 1, .begin "a" true false, .lookUp 2]

/-- The client was asked twice, and the document was closed once. -/
theorem single_flight_askedAnew :
    ∃ p, askedAnew.foldlM step {} = some p ∧ p.phase? 0 = some (.fetching 0) ∧
      p.phase? 1 = some (.fetching 1) ∧ p.session.cache.get? "a" = some 1 ∧
      asked "a" (Course.moments step {} askedAnew) = 2 ∧
      asked "a" (Course.moments step {} askedAnew) ≤
        1 + invalidations "a" (Course.moments step {} askedAnew) +
          failed "a" (Course.moments step {} askedAnew) ∧
      ∀ n, p.phase? n = some (.fetching 1) → n = 1 := by
  have hflight := single_flight (Course.of_events askedAnew rfl) "a"
  exact ⟨_, rfl, rfl, rfl, rfl, rfl, hflight.1, fun n hn => hflight.2.1 n 1 1 rfl hn rfl⟩

end SettingsCalls
end MarkupLint
