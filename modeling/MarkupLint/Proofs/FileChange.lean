/-
  What a change of one file does to the rest of a tree.

  Changing a tree goes down the same way as looking for a place, so a place is either passed on to
  the rest of the change or left alone (`at?_update_cons`). From this, by induction on the way to
  the changed file: every file at another place stays as it is (`file_update_iff`), and every
  directory stays a directory (`dir_update`), though directories may come into being on the way.
-/
import MarkupLint.Proofs.FileTree

namespace MarkupLint

namespace Node

variable {f : Option Node → Option Node} {old new? : Option Node} {n m : Node}
  {es : List (Bytes × Node)} {name other part q : Bytes} {ps qs rest : List Bytes}

/-! ## Trees without double names -/

/-- No directory of a tree has two entries of one name. -/
inductive Distinct : Node → Prop
  | file (content : Bytes) : Distinct (.file content)
  | dir {es : List (Bytes × Node)} : (es.map Prod.fst).Nodup → (∀ e ∈ es, Distinct e.2) →
      Distinct (.dir es)

/-- The names of one directory are different. -/
theorem Distinct.nodup (h : Distinct (.dir es)) : (es.map Prod.fst).Nodup := by
  cases h with
  | dir hnodup _ => exact hnodup

theorem Distinct.entry (h : Distinct (.dir es)) {e : Bytes × Node} (he : e ∈ es) :
    Distinct e.2 := by
  cases h with
  | dir _ hentries => exact hentries e he

/-- A name that is not listed leads nowhere. -/
theorem child?_eq_none (h : name ∉ es.map Prod.fst) : child? name es = none := by
  cases hchild : child? name es with
  | none => rfl
  | some m => exact absurd (List.mem_map_of_mem (mem_of_child? hchild)) h

/-- Without double names, what a directory lists under a name is what the name leads to. -/
theorem mem_iff_child? (h : (es.map Prod.fst).Nodup) :
    (name, m) ∈ es ↔ child? name es = some m := by
  refine ⟨fun hmem => ?_, mem_of_child?⟩
  induction es with
  | nil => exact absurd hmem (by simp)
  | cons e es ih =>
    obtain ⟨n, node⟩ := e
    rw [List.map_cons, List.nodup_cons] at h
    rcases List.mem_cons.mp hmem with heq | hmem
    · obtain ⟨rfl, rfl⟩ := Prod.mk.inj heq
      simp [child?]
    · have hne : n ≠ name := by
        rintro rfl
        exact h.1 (List.mem_map.mpr ⟨_, hmem, rfl⟩)
      rw [child?, if_neg hne]
      exact ih h.2 hmem

/-- Whatever a walk finds in a tree without double names has none either. -/
theorem Distinct.of_walk {up : List Node} (hup : ∀ k ∈ up, Distinct k) (hn : Distinct n)
    (h : walk up n ps = .ok m) : Distinct m := by
  fun_induction walk up n ps with
  | case1 up n =>
    obtain rfl : n = m := by simpa using h
    exact hn
  | case2 => exact absurd h (by simp)
  | case3 up part rest es hblank ih => exact ih hup hn h
  | case4 rest es _ ih => exact ih hup hn h
  -- going up, the directories above have to be without double names too
  | case5 rest es parent above _ ih =>
    exact ih (fun k hk => hup k (List.mem_cons_of_mem _ hk)) (hup parent List.mem_cons_self) h
  | case6 => exact absurd h (by simp)
  | case7 => exact absurd h (by simp)
  | case8 up part rest es _ _ _ child hchild ih =>
    exact ih (List.forall_mem_cons.mpr ⟨hn, hup⟩) (hn.entry (mem_of_child? hchild)) h

/-! ## Changing an entry -/

/-- A changed directory lists what it did before, and the new entry. -/
theorem mem_setChild {e : Bytes × Node} (h : e ∈ setChild name new? es) :
    e ∈ es ∨ (e.1 = name ∧ new? = some e.2) := by
  fun_induction setChild name new? es with
  | case1 =>
    obtain ⟨k, hk, rfl⟩ := List.mem_map.mp h
    exact .inr ⟨rfl, Option.mem_toList.mp hk⟩
  | case2 node es =>
    rcases List.mem_append.mp h with h | h
    · obtain ⟨k, hk, rfl⟩ := List.mem_map.mp h
      exact .inr ⟨rfl, Option.mem_toList.mp hk⟩
    · exact .inl (List.mem_cons_of_mem _ h)
  | case3 n node es _ ih =>
    rcases List.mem_cons.mp h with rfl | h
    · exact .inl List.mem_cons_self
    · exact (ih h).imp_left (List.mem_cons_of_mem _)

/-- Names stay apart in the directory that is changed. -/
theorem nodup_setChild (h : (es.map Prod.fst).Nodup) :
    ((setChild name new? es).map Prod.fst).Nodup := by
  fun_induction setChild name new? es with
  | case1 => cases new? <;> simp
  | case2 node es =>
    rw [List.map_cons, List.nodup_cons] at h
    cases new? with
    | none => exact h.2
    | some k => exact List.nodup_cons.mpr h
  -- an entry further on is changed; it does not get the name of this one
  | case3 n node es hne ih =>
    rw [List.map_cons, List.nodup_cons] at h ⊢
    refine ⟨fun hmem => ?_, ih h.2⟩
    obtain ⟨e, he, rfl⟩ := List.mem_map.mp hmem
    rcases mem_setChild he with he | ⟨heq, -⟩
    · exact h.1 (List.mem_map.mpr ⟨e, he, rfl⟩)
    · exact hne heq

/-- The name that is changed leads to the new entry, and all others where they led before. -/
theorem child?_setChild (h : (es.map Prod.fst).Nodup) :
    child? other (setChild name new? es) = if other = name then new? else child? other es := by
  fun_induction setChild name new? es with
  | case1 => cases new? <;> simp [child?, eq_comm]
  -- this is the entry that is replaced, or taken out if there is no new one
  | case2 node es =>
    rw [List.map_cons, List.nodup_cons] at h
    by_cases heq : other = name
    · subst heq
      cases new? with
      | none => simpa using child?_eq_none h.1
      | some k => simp [child?]
    · cases new? <;> simp [child?, heq, Ne.symm heq]
  | case3 n node es hne ih =>
    rw [List.map_cons, List.nodup_cons] at h
    rw [child?, child?, ih h.2]
    by_cases heq : n = other
    · subst heq
      simp [hne]
    · simp [heq]

/-! ## Changing a file -/

/-- A change of files: it leaves directories alone, and makes none. -/
structure FileChange (f : Option Node → Option Node) : Prop where
  keeps : ∀ es, f (some (.dir es)) = some (.dir es)
  makes : ∀ old es, f old = some (.dir es) → old = some (.dir es)

/-- What stands at a place, if there is a tree at all. -/
def at? (old : Option Node) (qs : List Bytes) : Option Node := old.bind fun n => n.find? qs

/-- An empty directory in the place of nothing makes no difference below it. -/
theorem find?_getD (old : Option Node) (qs : List Bytes) (name : Bytes) :
    (old.getD (.dir [])).find? (qs ++ [name]) = at? old (qs ++ [name]) := by
  cases old with
  | some n => rfl
  | none => cases qs <;> simp [at?, find?, child?]

/-- A place is looked for part by part. -/
theorem at?_cons (old : Option Node) (part : Bytes) (qs : List Bytes) :
    at? old (part :: qs) = at? (at? old [part]) qs := by
  simp only [at?, Option.bind_assoc, ← find?_append, List.singleton_append]

/-- A change is passed on to the part it is for, and leaves the other entries alone. -/
theorem at?_update_cons (hdistinct : ∀ n, old = some n → n.Distinct)
    (hold : ∀ content, old ≠ some (.file content)) :
    at? (update f (part :: rest) old) (q :: qs) =
      if q = part then at? (update f rest (at? old [part])) qs else at? old (q :: qs) := by
  cases old with
  -- where there is nothing, a directory for the change alone comes into being
  | none =>
    have hnone : ∀ rs, at? none rs = none := fun _ => rfl
    rw [hnone, hnone, update]
    cases update f rest none with
    | none => simp [at?]
    | some new =>
      by_cases heq : q = part
      · simp [at?, find?_cons, child?, heq]
      · simp [at?, find?_cons, child?, heq, Ne.symm heq]
  | some n =>
    cases n with
    | file content => exact absurd rfl (hold content)
    | dir es =>
      have hchild : at? (some (.dir es)) [part] = child? part es := by
        simp [at?, find?]
      rw [hchild, update]
      simp only [at?, Option.bind_some, find?_cons, child?_setChild (hdistinct _ rfl).nodup]
      split <;> rfl

/-- No part of a tree without double names has any. -/
theorem distinct_at? (hdistinct : ∀ n, old = some n → n.Distinct) (part : Bytes) :
    ∀ n, at? old [part] = some n → n.Distinct := by
  intro n hn
  cases old with
  | none => exact absurd hn (by simp [at?])
  | some k =>
    cases k with
    | file content => exact absurd hn (by simp [at?, find?])
    | dir es =>
      have hchild : child? part es = some n := by simpa [at?, find?_cons, find?] using hn
      exact (hdistinct _ rfl).entry (mem_of_child? hchild)

/-- A change keeps names apart. -/
theorem distinct_update (hf : FileChange f) (hdistinct : ∀ n, old = some n → n.Distinct) :
    ∀ n, update f ps old = some n → n.Distinct := by
  induction ps generalizing old with
  -- at the place itself, a directory is left as it is
  | nil =>
    intro n hn
    cases n with
    | file content => exact .file content
    | dir es => exact hdistinct _ (hf.makes old es hn)
  | cons part rest ih =>
    have hrest := ih (distinct_at? hdistinct part)
    intro n hn
    cases old with
    | none =>
      rw [update] at hn
      cases hnew : update f rest none with
      | none => exact absurd hn (by simp [hnew])
      | some new =>
        obtain rfl : .dir [(part, new)] = n := by simpa [hnew] using hn
        exact .dir (by simp) (by simpa using hrest new hnew)
    | some k =>
      cases k with
      | file content =>
        obtain rfl : .file content = n := by simpa [update] using hn
        exact .file content
      | dir es =>
        -- the new entry has the name of the old one, or a name that was not there
        have hes := hdistinct _ rfl
        obtain rfl : .dir (setChild part (update f rest (child? part es)) es) = n := by
          simpa [update] using hn
        refine .dir (nodup_setChild hes.nodup) fun e he => ?_
        rcases mem_setChild he with he | ⟨-, hnew⟩
        · exact hes.entry he
        · exact hrest _ (by simpa [at?, find?] using hnew)

/-- **Changing a file leaves the files at all other places as they are.** -/
theorem file_update_iff (hf : FileChange f) (hdistinct : ∀ n, old = some n → n.Distinct)
    (hne : qs ≠ ps) (content : Bytes) :
    at? (update f ps old) qs = some (.file content) ↔ at? old qs = some (.file content) := by
  induction ps generalizing old qs with
  | nil =>
    obtain ⟨q, qs, rfl⟩ := List.exists_cons_of_ne_nil hne
    -- below the changed place there is something only if it is a directory, and then it stays
    have hfile : ∀ k : Option Node, (∀ es, k ≠ some (.dir es)) → at? k (q :: qs) = none := by
      intro k hk
      rcases k with _ | _ | es
      · rfl
      · simp [at?, find?]
      · exact absurd rfl (hk es)
    by_cases hdir : ∃ es, old = some (.dir es)
    · obtain ⟨es, rfl⟩ := hdir
      rw [update, hf.keeps]
    · have hold : ∀ es, old ≠ some (.dir es) := fun es h => hdir ⟨es, h⟩
      rw [update, hfile old hold, hfile (f old) fun es h => hold es (hf.makes old es h)]
  | cons part rest ih =>
    by_cases hfile : ∃ c, old = some (.file c)
    · obtain ⟨c, rfl⟩ := hfile
      rw [update]
    · have hold : ∀ c, old ≠ some (.file c) := fun c h => hfile ⟨c, h⟩
      cases qs with
      | nil =>
        -- on the way to the changed file there are only directories
        rcases old with _ | c | es
        · rw [update]
          cases update f rest none <;> simp [at?, find?]
        · exact absurd rfl (hold c)
        · simp [update, at?, find?]
      | cons q qs =>
        rw [at?_update_cons hdistinct hold]
        split
        · subst q
          rw [ih (distinct_at? hdistinct part) (fun h => hne (h ▸ rfl)), ← at?_cons]
        · rfl

/-- Changing a file takes no directory away. -/
theorem dir_update (hf : FileChange f) (hdistinct : ∀ n, old = some n → n.Distinct)
    (ps : List Bytes) (h : at? old qs = some (.dir es)) :
    ∃ es', at? (update f ps old) qs = some (.dir es') := by
  induction ps generalizing old qs with
  | nil =>
    rcases old with _ | c | es₀
    · exact absurd h (by simp [at?])
    · cases qs <;> exact absurd h (by simp [at?, find?])
    · rw [update, hf.keeps]
      exact ⟨es, h⟩
  | cons part rest ih =>
    by_cases hfile : ∃ c, old = some (.file c)
    · obtain ⟨c, rfl⟩ := hfile
      exact ⟨es, h⟩
    · have hold : ∀ c, old ≠ some (.file c) := fun c h => hfile ⟨c, h⟩
      cases qs with
      | nil =>
        obtain rfl : old = some (.dir es) := by
          rcases old with _ | n
          · exact absurd h (by simp [at?])
          · simpa [at?, find?] using h
        exact ⟨_, rfl⟩
      | cons q qs =>
        rw [at?_update_cons hdistinct hold]
        split
        · subst q
          exact ih (distinct_at? hdistinct part) (at?_cons old part qs ▸ h)
        · exact ⟨es, h⟩

end Node
end MarkupLint
