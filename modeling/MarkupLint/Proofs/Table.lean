/-
  What a table holds after a change: the name that was changed has its new value, and every other
  name the value that it had.
-/
import MarkupLint.Table

namespace MarkupLint
namespace Table

variable {α : Type}

@[simp] theorem get?_nil (name : String) : get? ([] : Table α) name = none := rfl

/-- A name is looked up from the front. -/
theorem get?_cons (e : String × α) (t : Table α) (name : String) :
    get? (e :: t) name = if e.1 = name then some e.2 else get? t name := by
  unfold get?
  by_cases h : e.1 = name
  · simp [h]
  · simp [h]

/-- What is put at the end is found if nothing before it has its name. -/
theorem get?_append_single (t : Table α) (name other : String) (a : α) :
    get? (t ++ [(name, a)]) other = (get? t other).or (if name = other then some a else none) := by
  induction t with
  | nil => simp [get?_cons]
  | cons e t ih =>
    rw [List.cons_append, get?_cons, get?_cons, ih]
    split <;> rfl

/-- Putting a value under a name that is there changes the entries of that name only. -/
theorem get?_map_put (t : Table α) (name other : String) (a : α) :
    get? (t.map fun e => if e.1 == name then (name, a) else e) other =
      if other = name then (get? t name).map fun _ => a else get? t other := by
  induction t with
  | nil => simp
  | cons e t ih =>
    rw [List.map_cons, get?_cons, get?_cons, get?_cons, ih]
    by_cases he : e.1 = name
    · by_cases ho : other = name
      · simp [he, ho]
      · simp [he, ho, Ne.symm ho]
    · by_cases ho : other = name
      · simp [he, ho]
      · simp [he, ho]

/-- A name is in use if it has a value. -/
theorem any_iff_get? (t : Table α) (name : String) :
    (t.any fun e => e.1 == name) = (get? t name).isSome := by
  induction t with
  | nil => rfl
  | cons e t ih =>
    rw [List.any_cons, get?_cons, ih]
    by_cases he : e.1 = name
    · simp [he]
    · simp [he]

/-- **What a table holds after a value was put into it.** -/
theorem get?_put (t : Table α) (name other : String) (a : α) :
    (t.put name a).get? other = if other = name then some a else t.get? other := by
  unfold put
  rw [any_iff_get?]
  -- a new name goes to the end, and one that is there keeps its place
  cases h : get? t name with
  | none =>
    rw [if_neg (by simp), get?_append_single]
    by_cases ho : other = name
    · simp [ho, h]
    · simp [ho, Ne.symm ho]
  | some b =>
    rw [if_pos (by simp), get?_map_put, h]
    rfl

/-- **What a table holds after a name was taken out of it.** -/
theorem get?_erase (t : Table α) (name other : String) :
    (t.erase name).get? other = if other = name then none else t.get? other := by
  induction t with
  | nil => simp [erase]
  | cons e t ih =>
    unfold erase at ih ⊢
    by_cases he : e.1 = name
    · rw [List.filter_cons_of_neg (by simp [he]), ih, get?_cons]
      by_cases ho : other = name
      · simp [ho]
      · simp [ho, he, Ne.symm ho]
    · rw [List.filter_cons_of_pos (by simp [he]), get?_cons, ih, get?_cons]
      by_cases ho : other = name
      · simp [ho, he]
      · simp [ho]

@[simp] theorem get?_put_self (t : Table α) (name : String) (a : α) :
    (t.put name a).get? name = some a := by
  rw [get?_put, if_pos rfl]

@[simp] theorem get?_erase_self (t : Table α) (name : String) :
    (t.erase name).get? name = none := by
  rw [get?_erase, if_pos rfl]

theorem get?_put_of_ne (t : Table α) {name other : String} (a : α) (h : other ≠ name) :
    (t.put name a).get? other = t.get? other := by
  rw [get?_put, if_neg h]

theorem get?_erase_of_ne (t : Table α) {name other : String} (h : other ≠ name) :
    (t.erase name).get? other = t.get? other := by
  rw [get?_erase, if_neg h]

/-- What is in a table after a name was taken out of it was there before. -/
theorem get?_of_get?_erase {t : Table α} {name other : String} {a : α}
    (h : (t.erase name).get? other = some a) : t.get? other = some a := by
  rw [get?_erase] at h
  split at h
  · exact absurd h (by simp)
  · exact h

/-- The names of a table are those that have a value. -/
theorem mem_names_iff (t : Table α) (name : String) :
    name ∈ t.names ↔ ∃ a, t.get? name = some a := by
  rw [← Option.isSome_iff_exists, ← any_iff_get?]
  simp [names]

/-- To sort a table brings in no names and loses none. -/
theorem mem_sorted_names (t : Table α) (name : String) :
    name ∈ t.sorted.names ↔ name ∈ t.names := by
  unfold sorted names
  simp only [List.mem_map]
  exact exists_congr fun e => and_congr_left fun _ => List.mem_mergeSort

end Table
end MarkupLint
