/-
  Courses: what can be told of a run of a machine that takes one step at a time.

  A course is the list of the moments of a run. A moment is a state together with the event that
  comes upon it, and its place in the list is its time. Facts about the past stay true when a course
  goes on (`getElem?_snoc_of_some`), so an invariant may speak of both the past and the state at
  hand, and is proved by going from one moment to the next.
-/
import MarkupLint.Proofs.Lists

namespace MarkupLint

variable {σ ε : Type}

/-- A state, and the event that comes upon it. -/
structure Moment (σ ε : Type) where
  state : σ
  event : ε

/-- The runs of a machine from `start`: the moments that it goes through, and the state in which it
    is left. The events are arbitrary as long as the machine can take them. -/
inductive Course (step : σ → ε → Option σ) (start : σ) : List (Moment σ ε) → σ → Prop where
  | nil : Course step start [] start
  | snoc {ms : List (Moment σ ε)} {s t : σ} {e : ε} :
      Course step start ms s → step s e = some t → Course step start (ms ++ [⟨s, e⟩]) t

namespace Course

/-- The moments of a run through a list of events. -/
def moments (step : σ → ε → Option σ) : σ → List ε → List (Moment σ ε)
  | _, [] => []
  | s, e :: es =>
    ⟨s, e⟩ ::
      match step s e with
      | none => []
      | some t => moments step t es

/-- A run that starts one event later than a course goes on from where the course ends. -/
theorem append_moments {step : σ → ε → Option σ} {start : σ} :
    ∀ (es : List ε) {ms : List (Moment σ ε)} {s t : σ}, Course step start ms s →
      es.foldlM step s = some t → Course step start (ms ++ moments step s es) t
  | [], ms, s, t, h, hrun => by
    have hst : s = t := by simpa using hrun
    rw [moments, List.append_nil, ← hst]
    exact h
  | e :: es, ms, s, t, h, hrun => by
    rw [List.foldlM_cons] at hrun
    cases hstep : step s e with
    -- the machine has stopped here, but it was said to go on
    | none => rw [hstep] at hrun; exact absurd hrun (by simp)
    | some u =>
      rw [hstep] at hrun
      have hrest := append_moments es (h.snoc hstep) hrun
      rw [List.append_assoc] at hrest
      simpa [moments, hstep] using hrest

/-- Every list of events that a machine can take one after the other gives a course. -/
theorem of_events {step : σ → ε → Option σ} {start t : σ} (es : List ε)
    (h : es.foldlM step start = some t) : Course step start (moments step start es) t := by
  simpa using append_moments es .nil h

end Course

/-! ## Looking back -/

section

variable {ms : List (Moment σ ε)} {m x : Moment σ ε} {i : Nat}

/-- What has been stays. -/
theorem getElem?_snoc_of_some (x : Moment σ ε) (h : ms[i]? = some m) :
    (ms ++ [x])[i]? = some m := by
  obtain ⟨hi, -⟩ := List.getElem?_eq_some_iff.mp h
  rw [List.getElem?_append_left hi]
  exact h

theorem lt_length_of_getElem? (h : ms[i]? = some m) : i < ms.length :=
  (List.getElem?_eq_some_iff.mp h).1

/-- All moments of a kind come before the time `b`. -/
def AllBefore (P : Moment σ ε → Prop) (ms : List (Moment σ ε)) (b : Nat) : Prop :=
  ∀ (l : Nat) (m : Moment σ ε), ms[l]? = some m → P m → l < b

variable {P : Moment σ ε → Prop} {b : Nat}

/-- Whatever has been was before now. -/
theorem allBefore_now : AllBefore P ms ms.length :=
  fun _ _ hl _ => lt_length_of_getElem? hl

/-- A further moment is either of another kind, or still early enough. -/
theorem AllBefore.snoc (h : AllBefore P ms b) (hx : P x → ms.length < b) :
    AllBefore P (ms ++ [x]) b := by
  intro l m hl hm
  rcases getElem?_snoc_cases hl with hold | ⟨rfl, rfl⟩
  · exact h l m hold hm
  · exact hx hm

variable {step : σ → ε → Option σ} {start s : σ}

/-- Up to any of its moments a course is a course. -/
theorem Course.take (h : Course step start ms s) (hi : ms[i]? = some m) :
    Course step start (ms.take i) m.state := by
  induction h with
  | nil => exact absurd hi (by simp)
  | @snoc ms s t e h hstep ih =>
    -- the moment is an earlier one or the last one
    rcases getElem?_snoc_cases hi with hold | ⟨rfl, rfl⟩
    · rw [List.take_append_of_le_length (Nat.le_of_lt (lt_length_of_getElem? hold))]
      exact ih hold
    · rw [List.take_left]
      exact h

/-- What came before a time is in the past of that time. -/
theorem getElem?_take_of_lt {b : Nat} (h : ms[i]? = some m) (hi : i < b) :
    (ms.take b)[i]? = some m := by
  rw [List.getElem?_take_of_lt hi]
  exact h

/-- The past of a time holds what came before it, and nothing else. -/
theorem getElem?_of_take {b : Nat} (h : (ms.take b)[i]? = some m) : i < b ∧ ms[i]? = some m := by
  rw [List.getElem?_take] at h
  split at h
  · exact ⟨‹_›, h⟩
  · exact absurd h (by simp)

end

end MarkupLint
