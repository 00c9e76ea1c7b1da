/-
  Settings of documents that are closed.

  A document is closed in two steps: it leaves the table, and then its settings are forgotten. A
  pass that has taken the document before can look for settings after both, and then settings are
  kept for a document that is not open (`settings_outlive_document`). This is the only way
  (`lookUp_of_settings_of_closed`): what is kept was brought in by a look-up since the settings were
  forgotten, a look-up is made on behalf of a pass, and a pass takes a document that is open.
-/
import MarkupLint.Proofs.SettingsCourse
import MarkupLint.Proofs.StaleResults

namespace MarkupLint

namespace SettingsCalls

variable {p p' : SettingsCalls} {e : SettingsEvent} {uri : String} {n slot : Nat}

/-- Settings of a document come to be kept when it is looked up. -/
theorem Effect.cache_cases (h : Effect p e p') (hslot : p'.session.cache.get? uri = some slot) :
    p.session.cache.get? uri = some slot ∨
      ∃ n c, e = .lookUp n ∧ p.calls[n]? = some c ∧ c.uri = uri := by
  cases h with
  | miss n c hc hφ hmiss =>
    by_cases hu : c.uri = uri
    · exact .inr ⟨n, c, rfl, hc, hu⟩
    · rw [move, Session.withSlot, Table.get?_put_of_ne _ _ (Ne.symm hu)] at hslot
      exact .inl hslot
  | discard n c slot hc hφ => exact .inl (Session.get?_of_discard hslot)
  | forget u => exact .inl (Table.get?_of_get?_erase hslot)
  | reset settings =>
    rw [Session.reset_cache] at hslot
    exact absurd hslot (by simp)
  | announce c =>
    simp only [Session.announce] at hslot
    split at hslot <;> exact .inl hslot
  | _ => exact .inl hslot

/-- Calls stay what they are about, and new ones begin. -/
theorem Effect.call_before {c' : SettingsCall} (h : Effect p e p') (hc' : p'.calls[n]? = some c') :
    (∃ c, p.calls[n]? = some c ∧ c.uri = c'.uri) ∨
      ∃ fetches canceled, e = .begin c'.uri fetches canceled ∧ n = p.calls.length := by
  -- all steps of a call but three are of this form
  have hmove : ∀ {m s φ}, (p.move m s φ).calls[n]? = some c' →
      ∃ c, p.calls[n]? = some c ∧ c.uri = c'.uri := by
    intro m s φ hm
    rw [getElem?_move] at hm
    split at hm
    · obtain ⟨c, hc, rfl⟩ := Option.map_eq_some_iff.mp hm
      exact ⟨c, hc, rfl⟩
    · exact ⟨c', hm, rfl⟩
  cases h with
  | begin uri fetches canceled =>
    rcases getElem?_snoc_cases hc' with hold | ⟨hn, rfl⟩
    · exact .inl ⟨c', hold, rfl⟩
    · exact .inr ⟨fetches, canceled, rfl, hn⟩
  | cancel m =>
    rw [List.getElem?_modify] at hc'
    obtain ⟨c, hc, rfl⟩ := Option.map_eq_some_iff.mp hc'
    refine .inl ⟨c, hc, ?_⟩
    split <;> rfl
  | forget _ | reset _ | announce _ => exact .inl ⟨c', hc', rfl⟩
  | _ => exact .inl (hmove hc')

end SettingsCalls

/-- The event opens the document. -/
def WorkspaceEvent.opens (uri : String) : WorkspaceEvent → Bool
  | .opened u _ _ _ => u = uri
  | _ => false

/-- The event makes a call for settings that no pass has asked for. -/
def WorkspaceEvent.CallsUnasked (e : WorkspaceEvent) : Prop :=
  ∃ uri fetches canceled, e = .settings (.begin uri fetches canceled)

namespace Workspace

variable {ms : List Instant} {x : Instant} {w w' : Workspace} {e : WorkspaceEvent}
  {out : List PassOutput} {root : Bytes} {fetches : Bool} {uri : String}
  {n c b i j k slot : Nat} {d : Document}

/-! ## Calls and their passes -/

/-- Every call is one of a pass, for the document of the pass. -/
def CallsAsked (w : Workspace) : Prop :=
  ∀ (n : Nat) (c : SettingsCall), w.settings.calls[n]? = some c →
    ∃ (m : Nat) (a : ActivePass), w.passes[m]? = some a ∧ a.call = some n ∧
      a.pass.document.uri = c.uri

/-- A pass asks for settings once. -/
theorem mayAsk_of_call {a : ActivePass} (h : a.call = some n) : mayAsk a = false := by
  unfold mayAsk
  split
  · rw [h]
    rfl
  · rfl

/-- Each event keeps calls and passes together: a pass that asks gets the new call, and no event
    takes a pass or its document away. -/
theorem Effect.callsAsked (h : Effect w e w' out) (he : ¬ e.CallsUnasked) (hw : CallsAsked w) :
    CallsAsked w' := by
  intro n c' hc'
  cases h with
  | opened _ _ _ _ | changed _ _ _ _ _ | closed _ => exact hw n c' hc'
  | settings e s hs =>
    rcases (SettingsCalls.effect_of_step hs).call_before hc'
      with ⟨c, hc, hu⟩ | ⟨fetches, canceled, rfl, -⟩
    · obtain ⟨m, a, ha, hcall, hdoc⟩ := hw n c hc
      exact ⟨m, a, ha, hcall, hdoc.trans hu⟩
    · exact absurd ⟨_, _, _, rfl⟩ he
  | begin _ _ _ _ =>
    obtain ⟨m, a, ha, hcall⟩ := hw n c' hc'
    refine ⟨m, a, ?_, hcall⟩
    rw [List.getElem?_append_left (List.getElem?_eq_some_iff.mp ha).1]
    exact ha
  | ask k canceled a s ha hask hs =>
    rcases (SettingsCalls.effect_of_step hs).call_before hc' with ⟨c, hc, hu⟩ | ⟨_, _, hbegin, rfl⟩
    · obtain ⟨m, a₀, ha₀, hcall, hdoc⟩ := hw n c hc
      -- the pass that asks has no call yet
      have hne : k ≠ m := by
        rintro rfl
        obtain rfl := Option.some.inj (ha.symm.trans ha₀)
        exact absurd hask (by simp [mayAsk_of_call hcall])
      exact ⟨m, a₀, by simp [ha₀, hne], hcall, hdoc.trans hu⟩
    · refine ⟨k, { a with call := some w.settings.calls.length }, by simp [ha], rfl, ?_⟩
      exact (SettingsEvent.begin.inj hbegin).1
  | pass _ k pe a p _ ha hb hp =>
    obtain ⟨m, a₀, ha₀, hcall, hdoc⟩ := hw n c' hc'
    refine ⟨m, if k = m then { a₀ with pass := p } else a₀, by simp [List.getElem?_modify, ha₀], ?_,
      ?_⟩
    · split <;> exact hcall
    · split
      · rename_i hkm
        subst hkm
        obtain rfl := Option.some.inj (ha.symm.trans ha₀)
        rw [hp.document_eq]
        exact hdoc
      · exact hdoc

/-- Where no call comes from elsewhere, every call is one of a pass. -/
theorem callsAsked_of_course (h : Course next (blank root fetches) ms w)
    (hasked : ∀ x ∈ ms, ¬ x.event.CallsUnasked) : CallsAsked w := by
  induction h with
  | nil => exact fun n c hc => absurd hc (by simp [blank])
  | snoc _ hstep ih =>
    obtain ⟨out, heff⟩ := effect_of_next hstep
    exact heff.callsAsked (hasked _ List.mem_concat_self)
      (ih fun x hx => hasked x (List.mem_append_left _ hx))

/-! ## Passes and their documents -/

theorem TakesAt.snoc (h : TakesAt ms n uri d b) (x : Instant) : TakesAt (ms ++ [x]) n uri d b := by
  obtain ⟨v, trigger, hb, hrest⟩ := h
  exact ⟨v, trigger, getElem?_snoc_of_some x hb, hrest⟩

/-- Every pass has taken its document. -/
theorem takesAt_of_course (h : Course next (blank root fetches) ms w) {a : ActivePass}
    (ha : w.passes[n]? = some a) :
    ∃ b, TakesAt ms n a.pass.document.uri a.pass.document b := by
  induction h generalizing a with
  | nil => exact absurd ha (by simp [blank])
  | @snoc ms w w' e hcourse hstep ih =>
    obtain ⟨out, heff⟩ := effect_of_next hstep
    -- a pass that was there before has kept its document
    have hold : ∀ {a₀ : ActivePass}, w.passes[n]? = some a₀ → a.pass.document = a₀.pass.document →
        ∃ b, TakesAt (ms ++ [⟨w, e⟩]) n a.pass.document.uri a.pass.document b := by
      intro a₀ ha₀ hdoc
      obtain ⟨b, hb⟩ := ih ha₀
      rw [hdoc]
      exact ⟨b, hb.snoc _⟩
    cases heff with
    | begin uri trigger d hd =>
      rcases getElem?_snoc_cases ha with ha | ⟨hn, rfl⟩
      · exact hold ha rfl
      · refine ⟨ms.length, w, trigger, ?_, hn.symm, ?_⟩
        · rw [keyed_of_course hcourse uri d hd]
          exact List.getElem?_concat_length
        · rw [keyed_of_course hcourse uri d hd]
          exact hd
    | ask k _ a₀ _ ha₀ _ _ =>
      rw [List.getElem?_modify] at ha
      obtain ⟨a₁, ha₁, rfl⟩ := Option.map_eq_some_iff.mp ha
      exact hold ha₁ (by split <;> rfl)
    | pass _ k pe a₀ p _ ha₀ hb hp =>
      rw [List.getElem?_modify] at ha
      obtain ⟨a₁, ha₁, rfl⟩ := Option.map_eq_some_iff.mp ha
      refine hold ha₁ ?_
      split
      · rename_i hkn
        subst hkn
        obtain rfl := Option.some.inj (ha₀.symm.trans ha₁)
        exact hp.document_eq
      · rfl
    | opened _ _ _ _ | changed _ _ _ _ _ | closed _ | settings _ _ _ => exact hold ha rfl

/-! ## Closing -/

/-- The document leaves the table at the time `j`, its settings are forgotten at the time `k`, and
    it is not opened again. -/
structure ClosedAt (ms : List Instant) (uri : String) (j k : Nat) : Prop where
  dropped : ∃ v, ms[j]? = some ⟨v, .closed uri⟩
  forgotten : ∃ v, ms[k]? = some ⟨v, .settings (.forget uri)⟩
  inTurn : j < k
  stays : ∀ i x, j < i → ms[i]? = some x → x.event.opens uri = false

/-- A document that was closed and not opened since is not in the table. -/
theorem not_open_of_course (h : Course next (blank root fetches) ms w) {v : Workspace}
    (hdropped : ms[j]? = some ⟨v, .closed uri⟩)
    (hstays : ∀ i x, j < i → ms[i]? = some x → x.event.opens uri = false) :
    w.documents.get? uri = none := by
  induction h with
  | nil => exact absurd hdropped (by simp)
  | @snoc ms w w' e _ hstep ih =>
    obtain ⟨out, heff⟩ := effect_of_next hstep
    rcases getElem?_snoc_cases hdropped with hold | ⟨rfl, heq⟩
    · have hnone := ih hold fun i x hi hx => hstays i x hi (getElem?_snoc_of_some _ hx)
      have hnot := hstays ms.length _ (lt_length_of_getElem? hold) List.getElem?_concat_length
      -- of the events on the document only opening it could bring it back
      by_cases ht : e.Touches uri
      · cases heff with
        | opened u language version text =>
          exact absurd hnot (by simp [WorkspaceEvent.opens, show u = uri from ht])
        | changed u text version d hd =>
          obtain rfl : u = uri := ht
          rw [hnone] at hd
          exact absurd hd (by simp)
        | closed u =>
          obtain rfl : u = uri := ht
          exact Table.get?_erase_self _ _
        | settings _ _ _ | begin _ _ _ _ | ask _ _ _ _ _ _ _ => exact ht.elim
        | pass _ _ _ _ _ _ _ hb _ => cases hb <;> exact ht.elim
      · rw [heff.get?_of_not_touches ht]
        exact hnone
    · obtain ⟨rfl, rfl⟩ := Moment.mk.inj heq
      cases heff with
      | closed _ => exact Table.get?_erase_self _ _
      | pass _ _ _ _ _ _ _ hb _ => cases hb

/-- At the time `l` the call of number `c` looks for the settings of the document. -/
def LooksUpAt (ms : List Instant) (uri : String) (c l : Nat) : Prop :=
  ∃ v call, ms[l]? = some ⟨v, .settings (.lookUp c)⟩ ∧ v.settings.calls[c]? = some call ∧
    call.uri = uri

/-- Settings that are kept were looked up after they were forgotten. -/
theorem lookUp_of_forgotten (h : Course next (blank root fetches) ms w) {v : Workspace}
    (hforgotten : ms[k]? = some ⟨v, .settings (.forget uri)⟩)
    (hslot : w.session.cache.get? uri = some slot) :
    ∃ c l, k < l ∧ LooksUpAt ms uri c l := by
  induction h with
  | nil => exact absurd hforgotten (by simp)
  | @snoc ms w w' e _ hstep ih =>
    obtain ⟨out, heff⟩ := effect_of_next hstep
    rcases getElem?_snoc_cases hforgotten with hold | ⟨rfl, heq⟩
    · have hkept : w.session.cache.get? uri = some slot →
          ∃ c l, k < l ∧ LooksUpAt (ms ++ [⟨w, e⟩]) uri c l := by
        intro hslot
        obtain ⟨c, l, hl, u, call, hat, hcall⟩ := ih hold hslot
        exact ⟨c, l, hl, u, call, getElem?_snoc_of_some _ hat, hcall⟩
      cases heff with
      | settings e s hs =>
        rcases (SettingsCalls.effect_of_step hs).cache_cases hslot with hslot | ⟨m, c, rfl, hc, hu⟩
        · exact hkept hslot
        · exact ⟨m, ms.length, lt_length_of_getElem? hold, w, c,
            List.getElem?_concat_length, hc, hu⟩
      | ask n canceled a s ha hask hs =>
        rcases (SettingsCalls.effect_of_step hs).cache_cases hslot with hslot | ⟨m, c, hlook, -, -⟩
        · exact hkept hslot
        · exact absurd hlook (by simp)
      | _ => exact hkept hslot
    · obtain ⟨rfl, rfl⟩ := Moment.mk.inj heq
      cases heff with
      | settings _ s hs =>
        obtain rfl := Option.some.inj hs
        exact absurd hslot (by simp [session, Session.forget])
      | pass _ _ _ _ _ _ _ hb _ => cases hb

/-- **Settings of a closed document are kept only for a pass that overtakes the closing.** Let
    passes and changes interleave in any way, whatever comes of the requests for settings. If
    settings are kept for a document after it was closed, then a pass that has taken the document
    before it left the table has looked for its settings after these were forgotten. -/
theorem lookUp_of_settings_of_closed (h : Course next (blank root fetches) ms w)
    (hasked : ∀ x ∈ ms, ¬ x.event.CallsUnasked) (hclosed : ClosedAt ms uri j k)
    (hslot : w.session.cache.get? uri = some slot) :
    ∃ n d b l v a c, TakesAt ms n uri d b ∧ b < j ∧
      ms[l]? = some ⟨v, .settings (.lookUp c)⟩ ∧ k < l ∧
      v.passes[n]? = some a ∧ a.call = some c := by
  obtain ⟨v, hforgotten⟩ := hclosed.forgotten
  obtain ⟨c, l, hl, u, call, hat, hc, huri⟩ := lookUp_of_forgotten h hforgotten hslot
  -- up to the look-up the course is one too, so its call has a pass, and that has taken its
  -- document
  have hbefore := h.take hat
  obtain ⟨n, a, ha, hcall, hdoc⟩ := callsAsked_of_course hbefore
    (fun x hx => hasked x (List.mem_of_mem_take hx)) c call hc
  obtain ⟨b, w₀, trigger, hb, hn, hd⟩ := takesAt_of_course hbefore ha
  obtain ⟨hbl, hb⟩ := getElem?_of_take hb
  rw [hdoc, huri] at hb hd
  refine ⟨n, a.pass.document, b, l, u, a, c, ⟨w₀, trigger, hb, hn, hd⟩, ?_, hat, hl, ha, hcall⟩
  -- later the document is not open
  obtain ⟨v', hdropped⟩ := hclosed.dropped
  rcases Nat.lt_trichotomy b j with hlt | rfl | hgt
  · exact hlt
  · exact absurd (hb.symm.trans hdropped) (by simp)
  · have hnone := not_open_of_course (h.take hb) (getElem?_take_of_lt hdropped hgt)
      (fun i x hi hx => hclosed.stays i x hi (getElem?_of_take hx).2)
    exact absurd (hnone.symm.trans hd) (by simp)

/-- A document is closed after a pass has taken it and before the pass asks for its settings. The
    client answers. -/
def closedBeforeAsking : List WorkspaceEvent :=
  [.settings (.announce { configuration := true }), .opened "a" "html" 1 [],
    .begin "a" .opened, .readGlobal 0, .closed "a", .settings (.forget "a"),
    .ask 0 false, .settings (.lookUp 0), .settings (.startFetch 0),
    .settings (.endFetch 0 (.ok .default)), .settings (.complete 0), .settings (.wake 0),
    .gotSettings 0, .gotConfig 0 (.ok []), .linted 0 (.ok none), .checkCanceled 0 false,
    .checkCurrent 0, .finish 0]

/-- The document is not open and its only pass has ended, but its settings are still there. -/
theorem settings_outlive_document :
    ∃ w : Workspace, closedBeforeAsking.foldlM next (blank [] true) = some w ∧
      w.documents.get? "a" = none ∧ w.passes.map (·.pass.phase) = [.ended none] ∧
      w.session.cache.get? "a" = some 0 ∧
      ClosedAt (Course.moments next (blank [] true) closedBeforeAsking) "a" 4 5 := by
  refine ⟨_, rfl, rfl, rfl, rfl, ⟨_, rfl⟩, ⟨_, rfl⟩, by decide, ?_⟩
  -- no later event opens the document
  intro i x hi hx
  have hlater : ((Course.moments next (blank [] true) closedBeforeAsking).drop 5).all
      (fun x => !x.event.opens "a") = true := rfl
  have hmem : x ∈ (Course.moments next (blank [] true) closedBeforeAsking).drop 5 := by
    refine List.mem_of_getElem? (i := i - 5) ?_
    rw [List.getElem?_drop, Nat.add_sub_cancel' hi]
    exact hx
  simpa using List.all_eq_true.mp hlater x hmem

end Workspace
end MarkupLint
