/-
  Timers, step by step.

  Timers are never forgotten: a step adds some at the most. A timer that was there and is pending
  after a step was pending before it, for the same document (`TimersKept`), so one that is spent
  stays spent. And whenever a timer is added for a document, a new timer of this document is
  pending, whatever was pending before (`Ticks`).
-/
import MarkupLint.Proofs.ServerCourse

namespace MarkupLint
namespace Server

variable {s s' : Server} {fs : FileSystem} {e : ServerEvent} {trigger : Trigger}

/-! ## What a step does to timers -/

/-- Timers stay what they are, and none of those that were there comes to be pending. -/
structure TimersKept (s s' : Server) : Prop where
  kept : s.timers <+: s'.timers
  old : ∀ u t, t < s.timers.length → s'.pending.get? u = some t → s.pending.get? u = some t

theorem TimersKept.refl (s : Server) : TimersKept s s := ⟨List.prefix_rfl, fun _ _ _ h => h⟩

/-- A timer that is there stays there, so what is said of it can be put together. -/
theorem TimersKept.trans {s t u : Server} (h : TimersKept s t) (k : TimersKept t u) :
    TimersKept s u :=
  ⟨h.kept.trans k.kept,
    fun v n hn hv => h.old v n hn (k.old v n (Nat.lt_of_lt_of_le hn h.kept.length_le) hv)⟩

/-- A timer keeps its number. -/
theorem TimersKept.getElem? (h : TimersKept s s') {t : Nat} {timer : LintTimer}
    (ht : s.timers[t]? = some timer) : s'.timers[t]? = some timer := by
  obtain ⟨new, hnew⟩ := h.kept
  rw [← hnew, List.getElem?_append_left (List.getElem?_eq_some_iff.mp ht).1]
  exact ht

/-- Besides, where a timer is added for a document, a new one is pending. -/
structure Ticks (s s' : Server) : Prop extends TimersKept s s' where
  new : ∀ t timer, s.timers.length ≤ t → s'.timers[t]? = some timer →
    ∃ t', s.timers.length ≤ t' ∧ s'.pending.get? timer.uri = some t'

/-- Steps that set no timer. -/
theorem ticks_of_same (htimers : s'.timers = s.timers)
    (hpending : ∀ u t, s'.pending.get? u = some t → s.pending.get? u = some t) : Ticks s s' := by
  refine ⟨⟨htimers ▸ List.prefix_rfl, fun u t _ h => hpending u t h⟩, fun t timer ht htimer => ?_⟩
  rw [htimers, List.getElem?_eq_none ht] at htimer
  exact absurd htimer (by simp)

/-- Steps that set the timers of some documents. -/
theorem SetsTimersOf.ticks {those : String → Prop} (h : SetsTimersOf those trigger s s') :
    Ticks s s' := by
  refine ⟨⟨h.kept, fun u t ht hu => ?_⟩, fun t timer ht htimer => ?_⟩
  · -- what is pending for such a document is new, and for any other one it is as before
    by_cases hthose : those u
    · obtain ⟨t', ht', hpending, -⟩ := h.pending u hthose
      obtain rfl := Option.some.inj (hpending.symm.trans hu)
      exact absurd ht' (Nat.not_le.mpr ht)
    · rw [← h.others u hthose]
      exact hu
  · obtain ⟨t', ht', hpending, -⟩ := h.pending timer.uri (h.made t timer ht htimer)
    exact ⟨t', ht', hpending⟩

/-- Of the tasks, one sets a timer, and two take timers away. -/
theorem ticks_perform (s : Server) (t : ServerTask) : Ticks s (s.perform t).1 := by
  cases t with
  | schedule uri trigger => exact (setsTimersOf_scheduleEach trigger [uri] (s, [])).ticks
  | cancelLinting uri =>
    obtain ⟨settings, running, heq, -⟩ := cancelLinting_spec s uri
    rw [perform, heq]
    exact ticks_of_same rfl fun _ _ h => Table.get?_of_get?_erase h
  | stopTimers => exact ticks_of_same rfl fun _ _ h => absurd h (by simp [perform, stopTimers])
  | cancelWork =>
    obtain ⟨settings, heq⟩ := cancelWork_spec s
    rw [perform, heq]
    exact ticks_of_same rfl fun _ _ h => h
  | setDebounce delay =>
    simp only [perform, setDebounce]
    split <;> exact ticks_of_same rfl fun _ _ h => h
  | changeDocument uri text version =>
    rw [perform, changeDocument_spec]
    exact ticks_of_same rfl fun _ _ h => h
  | _ => exact ticks_of_same rfl fun _ _ h => h

/-- A handler that leaves the timers alone does so whatever the parameters. -/
theorem timers_withParams {α : Type} {c : Codec α} {params : Option Json} {f : α → Handled}
    (h : ∀ a, (f a).server.timers = s.timers) :
    (s.withParams c params f).server.timers = s.timers := by
  unfold withParams
  split
  · rfl
  · split
    · exact h _
    · rfl

theorem timers_update (uri text : String) (version : Option Int) (trigger : Trigger) :
    (s.update uri text version trigger).server.timers = s.timers := by
  unfold update
  split <;> rfl

theorem timers_register (s : Server) (rs : List Json) : (s.register rs).1.timers = s.timers := by
  unfold register
  split <;> rfl

/-- Messages leave the timers alone; what they leave to do sets them. -/
theorem timers_handle (fs : FileSystem) (s : Server) (method : String) (params : Option Json)
    (isRequest : Bool) : (s.handle fs method params isRequest).server.timers = s.timers := by
  unfold handle
  split
  · refine timers_withParams fun p => ?_
    simp only [onInitialize, setDebounce]
    split <;> split <;> rfl
  · simp only [onInitialized, Handled.ofReaction]
    rw [timers_register]
    split <;> rfl
  · rfl
  · rfl
  · exact timers_withParams fun _ => rfl
  · refine timers_withParams fun p => ?_
    unfold onChange
    split
    · rfl
    · exact timers_update _ _ _ _
  · refine timers_withParams fun p => ?_
    unfold onSave
    split
    · exact timers_update _ _ _ _
    · rfl
  · exact timers_withParams fun _ => rfl
  · rfl
  · exact timers_withParams fun _ => rfl
  · exact timers_withParams fun _ => rfl
  · refine timers_withParams fun p => ?_
    unfold onFiles
    split <;> rfl
  · exact timers_withParams fun _ => rfl
  · split <;> rfl

/-- Taking in a message sets no timers. -/
theorem timers_receive (fs : FileSystem) (s : Server) (m : ClientMessage) :
    (s.receive fs m).1.timers = s.timers := by
  cases m with
  | request id method params => exact timers_handle fs s method params true
  | notification method params => exact timers_handle fs s method params false
  | reply id answer =>
    simp only [receive, takeReply]
    split
    · rfl
    · split <;> rfl

/-- A timer that fires stays where it is, for its number is not used again. -/
theorem timers_fire {t : Nat} (h : s.fire t = some s') : s'.timers = s.timers := by
  unfold fire at h
  split at h
  · exact absurd h (by simp)
  · split at h
    · obtain rfl := Option.some.inj h
      simp only
      split
      · rename_i n hn
        obtain ⟨settings, heq⟩ := cancelRun_spec { s with pending := s.pending.erase _ } n
        rw [heq]
      · rfl
    · obtain rfl := Option.some.inj h
      rfl

/-- Runs set no timers. -/
theorem timers_stepRun {r : LintRun} {p : Nat} {e : WorkspaceEvent} {out : List ServerOutput}
    (h : s.stepRun r p e = some (s', out)) : s'.timers = s.timers := by
  unfold stepRun at h
  split at h
  · obtain ⟨⟨w, wout⟩, -, heq⟩ := Option.map_eq_some_iff.mp h
    simp only at heq
    split at heq
    · obtain ⟨rfl, -⟩ := Prod.mk.inj heq
      rfl
    · obtain ⟨rfl, -⟩ := Prod.mk.inj heq
      rfl
  · exact absurd h (by simp)

/-- The watcher sets the timers of all documents, or none. -/
theorem ticks_watch (fs : FileSystem) (s : Server) (w : Watcher) (e : WatchEvent) :
    Ticks s (s.watch fs w e).1 := by
  simp only [watch]
  split
  · exact ticks_of_same rfl fun _ _ h => h
  · have h :=
      (revalidated_scheduleAll { s with watcher := some (w.step fs e).1 } .configChanged).ticks
    exact ⟨⟨h.kept, h.old⟩, h.new⟩

/-- Every step lets the timers go on. -/
theorem ticks_of_next (h : next fs s e = some s') : Ticks s s' := by
  obtain ⟨⟨s', out⟩, hstep, rfl⟩ := Option.map_eq_some_iff.mp h
  cases effect_of_step hstep with
  | received m _ hidle hsame htasks =>
    simp only [step] at hstep
    split at hstep
    · obtain rfl : _ = s' := congrArg Prod.fst (Option.some.inj hstep)
      exact ticks_of_same (timers_receive fs s m) fun _ _ h => by rw [← hsame.pending]; exact h
    · exact absurd hstep (by simp)
  | worked t ts ht =>
    have h := ticks_perform { s with tasks := ts } t
    exact ⟨⟨h.kept, h.old⟩, h.new⟩
  -- the timer that fires is no longer pending
  | fired t timer _ ht hpending hs' =>
    obtain ⟨s'', hfire, heq⟩ := Option.map_eq_some_iff.mp hstep
    obtain rfl : s'' = s' := congrArg Prod.fst heq
    exact ticks_of_same (timers_fire hfire) fun _ _ h =>
      Table.get?_of_get?_erase (by rw [← hs'.pending]; exact h)
  | pass n r p e _ _ hr hφ hallows hw hruns =>
    simp only [step, hr, hφ] at hstep
    exact ticks_of_same (timers_stepRun hstep) fun _ _ h => by rw [← hruns.pending]; exact h
  | watched e _ hs' =>
    simp only [step] at hstep
    split at hstep
    · split at hstep
      · exact absurd hstep (by simp)
      · obtain rfl : _ = s' := congrArg Prod.fst (Option.some.inj hstep)
        exact ticks_watch fs s _ e
    · exact absurd hstep (by simp)
  | _ => exact ticks_of_same rfl fun _ _ h => h

end Server
end MarkupLint
