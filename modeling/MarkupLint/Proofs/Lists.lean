/-
  Lists, as far as the library does not say it: sorting and picking out, counting after a change of
  one element, leaving out repetitions, and loops whose turns can fail.

  Sorting is stable, so it does not matter whether one picks out before or after it
  (`filter_mergeSort`); what is picked out of a sorted list is then a part of what a wider choice
  picks out (`sublist_mergeSort_filter`).
-/
import Mathlib.Data.List.Induction

namespace MarkupLint

variable {α β : Type} {n : Nat} {l : List α}

/-! ## Sorting -/

section Sorting

variable {le : α → α → Bool} {p q : α → Bool}

/-- Two ways to cut a list into a part that satisfies `p` and a part that does not are the same. -/
theorem append_cut_unique {l₁ l₂ m₁ m₂ : List α} (h : l₁ ++ l₂ = m₁ ++ m₂)
    (hl₁ : ∀ x ∈ l₁, p x = true) (hl₂ : ∀ x ∈ l₂, p x = false)
    (hm₁ : ∀ x ∈ m₁, p x = true) (hm₂ : ∀ x ∈ m₂, p x = false) : l₁ = m₁ ∧ l₂ = m₂ := by
  have hfront : l₁ = m₁ := by
    have hfilter := congrArg (List.filter p) h
    rw [List.filter_append, List.filter_append, List.filter_eq_self.mpr hl₁,
      List.filter_eq_self.mpr hm₁, List.filter_eq_nil_iff.mpr fun x hx => by simp [hl₂ x hx],
      List.filter_eq_nil_iff.mpr fun x hx => by simp [hm₂ x hx]] at hfilter
    simpa using hfilter
  subst hfront
  exact ⟨rfl, List.append_cancel_left h⟩

/-- **Picking out and sorting can be exchanged**, since sorting is stable: it puts each element
    right before the first later one that it does not stand after. -/
theorem filter_mergeSort (htrans : ∀ a b c, le a b = true → le b c = true → le a c = true)
    (htotal : ∀ a b, (le a b || le b a) = true) (p : α → Bool) (l : List α) :
    (l.mergeSort le).filter p = (l.filter p).mergeSort le := by
  induction l with
  | nil => simp
  | cons a l ih =>
    obtain ⟨l₁, l₂, hcons, htail, hfront⟩ := List.mergeSort_cons htrans htotal a l
    by_cases ha : p a = true
    · obtain ⟨m₁, m₂, hcons', htail', hfront'⟩ :=
        List.mergeSort_cons htrans htotal a (l.filter p)
      -- what stands behind `a` in a sorted list is not before it
      have hback : ∀ x ∈ l₂, le a x = true := by
        have hsorted := List.pairwise_mergeSort htrans htotal (a :: l)
        rw [hcons, List.pairwise_append] at hsorted
        exact (List.pairwise_cons.mp hsorted.2.1).1
      have hback' : ∀ x ∈ m₂, le a x = true := by
        have hsorted := List.pairwise_mergeSort htrans htotal (a :: l.filter p)
        rw [hcons', List.pairwise_append] at hsorted
        exact (List.pairwise_cons.mp hsorted.2.1).1
      have hcut : l₁.filter p ++ l₂.filter p = m₁ ++ m₂ := by
        rw [← List.filter_append, ← htail, ih, htail']
      -- so `a` comes to stand at the same place, whether the rest is picked out before or after
      obtain ⟨h₁, h₂⟩ := append_cut_unique (p := fun x => !le a x) hcut
        (fun x hx => hfront x (List.mem_filter.mp hx).1)
        (fun x hx => by simp [hback x (List.mem_filter.mp hx).1])
        hfront' (fun x hx => by simp [hback' x hx])
      rw [hcons, List.filter_append, List.filter_cons_of_pos ha, List.filter_cons_of_pos ha,
        hcons', h₁, h₂]
    · rw [hcons, List.filter_append, List.filter_cons_of_neg ha, List.filter_cons_of_neg ha, ← ih,
        htail, List.filter_append]

/-- Of two selections from a list, one within the other, the smaller one stays within the other
    when both are sorted. -/
theorem sublist_mergeSort_filter
    (htrans : ∀ a b c, le a b = true → le b c = true → le a c = true)
    (htotal : ∀ a b, (le a b || le b a) = true) (h : ∀ x, p x = true → q x = true) (l : List α) :
    ((l.filter p).mergeSort le).Sublist ((l.filter q).mergeSort le) := by
  have htwice : l.filter p = (l.filter q).filter p := by
    rw [List.filter_filter]
    refine List.filter_congr fun x _ => ?_
    cases hp : p x with
    | false => rfl
    | true => rw [h x hp]; rfl
  rw [htwice, ← filter_mergeSort htrans htotal]
  exact List.filter_sublist

end Sorting

/-! ## Changes of one element -/

/-- What is in a longer list was there before, or is what was added. -/
theorem getElem?_snoc_cases {i : Nat} {a b : α} (h : (l ++ [b])[i]? = some a) :
    l[i]? = some a ∨ (i = l.length ∧ a = b) := by
  rcases Nat.lt_trichotomy i l.length with hi | hi | hi
  · rw [List.getElem?_append_left hi] at h
    exact .inl h
  · rw [hi, List.getElem?_concat_length] at h
    exact .inr ⟨hi, (Option.some.inj h).symm⟩
  · rw [List.getElem?_eq_none (by simp; omega)] at h
    exact absurd h (by simp)

/-- An element after a change of one element is the changed one, or has stayed the same. -/
theorem getElem?_modify_cases {f : α → α} {m : Nat} {b : α} (h : (l.modify n f)[m]? = some b) :
    ∃ a, l[m]? = some a ∧ ((n = m ∧ b = f a) ∨ (n ≠ m ∧ b = a)) := by
  rw [List.getElem?_modify] at h
  obtain ⟨a, ha, rfl⟩ := Option.map_eq_some_iff.mp h
  refine ⟨a, ha, ?_⟩
  by_cases hnm : n = m
  · exact .inl ⟨hnm, if_pos hnm⟩
  · exact .inr ⟨hnm, if_neg hnm⟩

/-- What holds of all elements, changed or not, holds of all after a change of one. -/
theorem forall_mem_modify {P : α → Prop} {f : α → α} (h : ∀ a ∈ l, P a)
    (hf : ∀ a ∈ l, P (f a)) : ∀ a ∈ l.modify n f, P a := by
  intro b hb
  obtain ⟨k, hk⟩ := List.getElem?_of_mem hb
  obtain ⟨a, ha, ⟨-, rfl⟩ | ⟨-, rfl⟩⟩ := getElem?_modify_cases hk
  · exact hf a (List.mem_of_getElem? ha)
  · exact h b (List.mem_of_getElem? ha)

/-- One element of a list is changed: it alone is counted anew. -/
theorem countP_modify {P : α → Bool} {f : α → α} {a : α} (h : l[n]? = some a) :
    (l.modify n f).countP P + (if P a then 1 else 0) = l.countP P + if P (f a) then 1 else 0 := by
  induction l generalizing n with
  | nil => exact absurd h (by simp)
  | cons b l ih =>
    -- the element that changes is the first one, or in the rest
    cases n with
    | zero =>
      obtain rfl : b = a := by simpa using h
      rw [List.modify_zero_cons, List.countP_cons, List.countP_cons]
      omega
    | succ n =>
      have hrest := ih (n := n) (by simpa using h)
      rw [List.modify_succ_cons, List.countP_cons, List.countP_cons]
      omega

/-! ## Repetitions -/

section Repetitions

variable [BEq α] [LawfulBEq α]

/-- A further element is a repetition, or is kept. -/
theorem eraseDups_snoc (l : List α) (x : α) :
    (l ++ [x]).eraseDups = if x ∈ l.eraseDups then l.eraseDups else l.eraseDups ++ [x] := by
  rw [List.eraseDups_append]
  by_cases hx : x ∈ l
  · simp [hx, List.removeAll]
  · simp [hx, List.removeAll, List.eraseDups_cons]

/-- Without repetitions, no element is there twice. -/
theorem nodup_eraseDups (l : List α) : l.eraseDups.Nodup := by
  induction l using List.reverseRecOn with
  | nil => simp
  | append_singleton l x ih =>
    rw [eraseDups_snoc]
    split
    · exact ih
    · rename_i hx
      exact List.nodup_append.mpr ⟨ih, by simp, by rintro y hy z hz rfl; simp_all⟩

end Repetitions

/-! ## Loops -/

section Loops

variable {ε : Type}

/-- A computation in two parts comes to a result if both parts do. -/
theorem bind_eq_ok_iff {x : Except ε α} {f : α → Except ε β} {b : β} :
    x >>= f = .ok b ↔ ∃ a, x = .ok a ∧ f a = .ok b := by
  cases x with
  | error e => exact ⟨fun h => absurd h nofun, fun ⟨_, h, _⟩ => absurd h nofun⟩
  | ok a => exact ⟨fun h => ⟨a, rfl, h⟩, fun ⟨_, h, hf⟩ => Except.ok.inj h ▸ hf⟩

/-- A loop whose turns all come to a result collects the results. -/
theorem mapM_eq_map {f : α → Except ε β} {g : α → β} (h : ∀ x ∈ l, f x = .ok (g x)) :
    l.mapM f = .ok (l.map g) := by
  induction l with
  | nil => rfl
  | cons x l ih =>
    rw [List.mapM_cons, h x List.mem_cons_self, ih fun y hy => h y (List.mem_cons_of_mem _ hy)]
    rfl

/-- Two loops whose turns agree on the elements of the list agree. -/
theorem foldlM_congr {g h : β → α → Except ε β} (heq : ∀ a ∈ l, ∀ b, g b a = h b a) (b : β) :
    l.foldlM g b = l.foldlM h b := by
  induction l generalizing b with
  | nil => rfl
  | cons a l ih =>
    rw [List.foldlM_cons, List.foldlM_cons, heq a List.mem_cons_self]
    congr 1
    funext b'
    exact ih (fun x hx => heq x (List.mem_cons_of_mem a hx)) b'

/-- Lists of at most one element that are put together hold the results of those elements that
    were picked. -/
theorem flatten_map_if (p : α → Bool) (f : α → β) (l : List α) :
    (l.map fun x => if p x then [f x] else []).flatten = (l.filter p).map f := by
  induction l with
  | nil => rfl
  | cons x l ih =>
    rw [List.map_cons, List.flatten_cons, ih]
    by_cases hx : p x = true
    · simp [hx]
    · simp [hx]

end Loops

end MarkupLint
