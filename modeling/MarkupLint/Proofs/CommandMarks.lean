/-
  The marks of a command, and what is put in for them.

  Three marks stand for the path of the document, its extension and the root. They are meant to be
  replaced at once (`fillTogether`): what is put in for one mark is not looked at again. They are
  replaced one after the other, so a mark that comes in with the path or the extension, as part of
  it or together with bytes of the command around it, is replaced as well.

  A mark begins with a dollar and holds no other, so a text may be cut in front of any dollar
  without cutting a mark (`fillFrom_before_dollar`). What one more round of replacing does to a text
  is then seen by cutting it at the marks of the command (`fill_fill_iff`): it is right just when no
  further mark has come in, or a mark is replaced by itself.
-/
import MarkupLint.Engine

namespace MarkupLint.LintCommand

open Shell (dollar)

/-! ## Replacing marks at once -/

/-- Marks, and what is put in for them. -/
abbrev Fillings := List (Bytes × Bytes)

/-- The text with its marks replaced, read from the left. `skip` counts the bytes of a mark that are
    still to be passed over. -/
def fillFrom (fs : Fillings) : Nat → Bytes → Bytes
  | _, [] => []
  | n + 1, _ :: r => fillFrom fs n r
  | 0, b :: r =>
    match fs.find? (·.1.isPrefixOf (b :: r)) with
    | some (m, v) => v ++ fillFrom fs (m.length - 1) r
    | none => b :: fillFrom fs 0 r

/-- The text with its marks replaced, all at once: what is put in for a mark is not looked at again,
    and every byte that belongs to no mark stays. -/
def fill (fs : Fillings) (s : Bytes) : Bytes := fillFrom fs 0 s

/-- The command with its marks replaced at once. -/
def fillTogether (command path root : Bytes) : Bytes :=
  fill [(inputMark, escapeParens path), (extensionMark, extension path),
    (rootMark, escapeParens root)] command

/-- The number of places in a text at which a mark stands. -/
def marksIn (m : Bytes) : Bytes → Nat
  | [] => 0
  | b :: r => (if m.isPrefixOf (b :: r) then 1 else 0) + marksIn m r

/-- A mark begins with a dollar and holds no other. -/
def IsMark (m : Bytes) : Prop := ∃ w, m = dollar :: w ∧ dollar ∉ w

variable {m v s t u w : Bytes} {fs : Fillings}

/-- Replacing one mark everywhere is a filling of its own. -/
theorem replaceFrom_eq_fillFrom (m v : Bytes) (k : Nat) (s : Bytes) :
    Bytes.replaceFrom m v k s = fillFrom [(m, v)] k s := by
  induction s generalizing k with
  | nil => cases k <;> rfl
  | cons b r ih =>
    cases k with
    | succ k => exact ih k
    | zero =>
      rw [Bytes.replaceFrom, fillFrom, List.find?_singleton]
      split
      · rw [ih]
      · rw [ih]

theorem replaceAll_eq_fill (s m v : Bytes) : s.replaceAll m v = fill [(m, v)] s :=
  replaceFrom_eq_fillFrom m v 0 s

/-- Behind the bytes that are passed over, reading goes on as from the start. -/
theorem fillFrom_skip (fs : Fillings) (p r : Bytes) :
    fillFrom fs p.length (p ++ r) = fill fs r := by
  induction p with
  | nil => rfl
  | cons b p ih => exact ih

/-- Without fillings a text stays. -/
theorem fill_nothing (s : Bytes) : fill [] s = s := by
  induction s with
  | nil => rfl
  | cons b r ih => exact congrArg (b :: ·) ih

/-! ## Cutting in front of a dollar -/

/-- A mark does not reach over a dollar. -/
theorem isPrefixOf_before_dollar (hm : IsMark m) (hs : s ≠ []) (w : Bytes) :
    m.isPrefixOf (s ++ dollar :: w) = m.isPrefixOf s := by
  obtain ⟨tail, rfl, htail⟩ := hm
  rw [Bool.eq_iff_iff, List.isPrefixOf_iff_prefix, List.isPrefixOf_iff_prefix]
  refine ⟨fun h => ?_, List.prefix_append_of_prefix⟩
  -- the mark ends in front of the dollar, or reaches over it
  rcases List.prefix_or_prefix_of_prefix h (List.prefix_append s _) with hinside | ⟨beyond, hbeyond⟩
  · exact hinside
  · rw [← hbeyond, List.prefix_append_right_inj] at h
    cases beyond with
    | nil =>
      rw [List.append_nil] at hbeyond
      exact hbeyond ▸ List.prefix_rfl
    | cons c rest =>
      -- the mark would hold the dollar behind its first byte
      obtain rfl := (List.cons_prefix_cons.mp h).1
      obtain ⟨b, r, rfl⟩ := List.exists_cons_of_ne_nil hs
      refine absurd ?_ htail
      rw [← (List.cons.inj hbeyond).2]
      exact List.mem_append_right r List.mem_cons_self

/-- Marks on both sides of a dollar add up. -/
theorem marksIn_before_dollar (hm : IsMark m) (u w : Bytes) :
    marksIn m (u ++ dollar :: w) = marksIn m u + marksIn m (dollar :: w) := by
  induction u with
  | nil => exact (Nat.zero_add _).symm
  | cons b r ih =>
    have hsame := isPrefixOf_before_dollar hm (List.cons_ne_nil b r) w
    rw [List.cons_append] at hsame ⊢
    rw [marksIn, marksIn, hsame, ih, Nat.add_assoc]

/-- Which mark stands at a place is told by what comes before the next dollar. -/
theorem find?_before_dollar (hfs : ∀ f ∈ fs, IsMark f.1) (hs : s ≠ []) (w : Bytes) :
    fs.find? (·.1.isPrefixOf (s ++ dollar :: w)) = fs.find? (·.1.isPrefixOf s) := by
  induction fs with
  | nil => rfl
  | cons f fs ih =>
    have hsame := isPrefixOf_before_dollar (hfs f List.mem_cons_self) hs w
    rw [List.find?_cons, List.find?_cons, hsame, ih fun g hg => hfs g (List.mem_cons_of_mem f hg)]

/-- Filling a text is filling what stands before a dollar, and what stands from it on. -/
theorem fillFrom_before_dollar (hfs : ∀ f ∈ fs, IsMark f.1) (k : Nat) (u w : Bytes)
    (hk : k ≤ u.length) :
    fillFrom fs k (u ++ dollar :: w) = fillFrom fs k u ++ fill fs (dollar :: w) := by
  induction u generalizing k with
  | nil =>
    obtain rfl := Nat.le_zero.mp hk
    rfl
  | cons b r ih =>
    cases k with
    | succ k => exact ih k (Nat.le_of_succ_le_succ hk)
    | zero =>
      have hsame := find?_before_dollar hfs (List.cons_ne_nil b r) w
      rw [List.cons_append] at hsame ⊢
      rw [fillFrom, fillFrom, hsame]
      cases hfind : fs.find? (·.1.isPrefixOf (b :: r)) with
      | none => exact congrArg (b :: ·) (ih 0 (Nat.zero_le _))
      -- the bytes of the mark that are passed over all stand before the dollar
      | some f =>
        have hpre := List.find?_some (p := fun f : Bytes × Bytes => f.1.isPrefixOf (b :: r)) hfind
        have hlength : f.1.length ≤ r.length + 1 := (List.isPrefixOf_iff_prefix.mp hpre).length_le
        show f.2 ++ fillFrom fs (f.1.length - 1) (r ++ dollar :: w) =
            f.2 ++ fillFrom fs (f.1.length - 1) r ++ _
        rw [ih _ (by omega), List.append_assoc]

/-- A run of bytes without a dollar stays. -/
theorem fill_plain (hfs : ∀ f ∈ fs, IsMark f.1) (hw : dollar ∉ w) (t : Bytes) :
    fill fs (w ++ t) = w ++ fill fs t := by
  induction w with
  | nil => rfl
  | cons b r ih =>
    have hnone : fs.find? (·.1.isPrefixOf (b :: (r ++ t))) = none := by
      refine List.find?_eq_none.mpr fun f hf hpre => ?_
      obtain ⟨tail, htail, -⟩ := hfs f hf
      rw [htail, List.isPrefixOf_iff_prefix] at hpre
      exact hw ((List.cons_prefix_cons.mp hpre).1 ▸ List.mem_cons_self)
    rw [List.cons_append, fill, fillFrom, hnone]
    exact congrArg (b :: ·) (ih fun h => hw (List.mem_cons_of_mem b h))

/-! ## Cutting at a mark -/

/-- Fillings leave a mark alone: none of their marks can stand where it stands. -/
structure LeaveAlone (fs : Fillings) (m : Bytes) : Prop where
  mark : IsMark m
  marks : ∀ f ∈ fs, IsMark f.1
  apart : ∀ f ∈ fs, ∀ t, f.1.isPrefixOf (m ++ t) = false

theorem leaveAlone_nothing (hm : IsMark m) : LeaveAlone [] m :=
  ⟨hm, fun _ hf => absurd hf List.not_mem_nil, fun _ hf => absurd hf List.not_mem_nil⟩

/-- One filling more, of a mark that cannot stand there either. -/
theorem LeaveAlone.cons {m' : Bytes} (h : LeaveAlone fs m) (hm' : IsMark m')
    (hapart : ∀ t, m'.isPrefixOf (m ++ t) = false) (v : Bytes) : LeaveAlone ((m', v) :: fs) m := by
  refine ⟨h.mark, fun f hf => ?_, fun f hf => ?_⟩
  · rcases List.mem_cons.mp hf with rfl | hf
    · exact hm'
    · exact h.marks f hf
  · rcases List.mem_cons.mp hf with rfl | hf
    · exact hapart
    · exact h.apart f hf

theorem LeaveAlone.find?_eq_none (h : LeaveAlone fs m) (t : Bytes) :
    fs.find? (·.1.isPrefixOf (m ++ t)) = none := by
  refine List.find?_eq_none.mpr fun f hf hpre => ?_
  rw [h.apart f hf t] at hpre
  exact absurd hpre (by decide)

/-- A mark that is left alone stays where it is. -/
theorem LeaveAlone.fill_mark (h : LeaveAlone fs m) (t : Bytes) :
    fill fs (m ++ t) = m ++ fill fs t := by
  have hnone := h.find?_eq_none t
  obtain ⟨⟨tail, rfl, htail⟩, hfs, -⟩ := h
  rw [List.cons_append] at hnone ⊢
  rw [fill, fillFrom, hnone]
  exact congrArg (dollar :: ·) (fill_plain hfs htail t)

/-- The last filling takes the mark that the others leave alone. -/
theorem LeaveAlone.fill_snoc_mark (h : LeaveAlone fs m) (v t : Bytes) :
    fill (fs ++ [(m, v)]) (m ++ t) = v ++ fill (fs ++ [(m, v)]) t := by
  have hpre : m.isPrefixOf (m ++ t) = true :=
    List.isPrefixOf_iff_prefix.mpr (List.prefix_append m t)
  have hfind : (fs ++ [(m, v)]).find? (·.1.isPrefixOf (m ++ t)) = some (m, v) := by
    rw [List.find?_append, h.find?_eq_none, List.find?_singleton, if_pos hpre]
    rfl
  obtain ⟨⟨tail, rfl, -⟩, -, -⟩ := h
  rw [List.cons_append] at hfind ⊢
  rw [fill, fillFrom, hfind]
  exact congrArg (v ++ ·) (fillFrom_skip _ tail t)

/-- Bytes without a dollar hold no mark. -/
theorem marksIn_plain (hm : IsMark m) (hw : dollar ∉ w) (t : Bytes) :
    marksIn m (w ++ t) = marksIn m t := by
  induction w with
  | nil => rfl
  | cons b r ih =>
    have hnot : m.isPrefixOf (b :: (r ++ t)) = false := by
      obtain ⟨tail, rfl, -⟩ := hm
      rw [← Bool.not_eq_true, List.isPrefixOf_iff_prefix]
      intro hpre
      exact hw ((List.cons_prefix_cons.mp hpre).1 ▸ List.mem_cons_self)
    rw [List.cons_append, marksIn, hnot, ih fun h => hw (List.mem_cons_of_mem b h)]
    exact Nat.zero_add _

theorem marksIn_mark (hm : IsMark m) (t : Bytes) : marksIn m (m ++ t) = 1 + marksIn m t := by
  have hpre : m.isPrefixOf (m ++ t) = true :=
    List.isPrefixOf_iff_prefix.mpr (List.prefix_append m t)
  obtain ⟨tail, rfl, htail⟩ := hm
  rw [List.cons_append] at hpre ⊢
  rw [marksIn, if_pos hpre, marksIn_plain ⟨tail, rfl, htail⟩ htail]

/-- A mark that is left alone cuts a text in two, which are filled each for itself. -/
theorem LeaveAlone.fill_cut (h : LeaveAlone fs m) (u t : Bytes) :
    fill fs (u ++ (m ++ t)) = fill fs u ++ (m ++ fill fs t) := by
  rw [← h.fill_mark]
  obtain ⟨⟨tail, rfl, -⟩, hfs, -⟩ := h
  exact fillFrom_before_dollar hfs 0 u (tail ++ t) (Nat.zero_le _)

theorem LeaveAlone.fill_snoc_cut (h : LeaveAlone fs m) (v u t : Bytes) :
    fill (fs ++ [(m, v)]) (u ++ (m ++ t)) =
      fill (fs ++ [(m, v)]) u ++ (v ++ fill (fs ++ [(m, v)]) t) := by
  have hall : ∀ f ∈ fs ++ [(m, v)], IsMark f.1 := by
    intro f hf
    rcases List.mem_append.mp hf with hf | hf
    · exact h.marks f hf
    · rw [List.mem_singleton.mp hf]
      exact h.mark
  rw [← h.fill_snoc_mark]
  obtain ⟨⟨tail, rfl, -⟩, -, -⟩ := h
  exact fillFrom_before_dollar hall 0 u (tail ++ t) (Nat.zero_le _)

/-- The marks of a text are counted piece by piece. -/
theorem marksIn_cut (hm : IsMark m) (u t : Bytes) :
    marksIn m (u ++ (m ++ t)) = marksIn m u + (1 + marksIn m t) := by
  rw [← marksIn_mark hm]
  obtain ⟨tail, rfl, htail⟩ := hm
  exact marksIn_before_dollar ⟨tail, rfl, htail⟩ u (tail ++ t)

/-- A text with a mark in it, cut at the first one. -/
theorem exists_cut (h : marksIn m s ≠ 0) : ∃ u t, s = u ++ (m ++ t) ∧ marksIn m u = 0 := by
  induction s with
  | nil => exact absurd rfl h
  | cons b r ih =>
    by_cases hpre : m.isPrefixOf (b :: r) = true
    · obtain ⟨t, ht⟩ := List.isPrefixOf_iff_prefix.mp hpre
      exact ⟨[], t, ht.symm, rfl⟩
    · rw [marksIn, if_neg hpre, Nat.zero_add] at h
      obtain ⟨u, t, rfl, hu⟩ := ih h
      refine ⟨b :: u, t, rfl, ?_⟩
      -- a mark in front of the cut would stand in the whole text too
      have hnot : ¬ m.isPrefixOf (b :: u) = true := by
        intro hmark
        rw [List.isPrefixOf_iff_prefix] at hmark hpre
        exact hpre (List.prefix_append_of_prefix hmark)
      rw [marksIn, if_neg hnot, Nat.zero_add, hu]

/-- Texts are built up mark by mark: from those without the mark, by putting such a text and the
    mark in front. -/
theorem mark_induction (hm : IsMark m) {P : Bytes → Prop} (free : ∀ s, marksIn m s = 0 → P s)
    (cut : ∀ u t, marksIn m u = 0 → P t → P (u ++ (m ++ t))) (s : Bytes) : P s := by
  by_cases h : marksIn m s = 0
  · exact free s h
  · obtain ⟨u, t, rfl, hu⟩ := exists_cut h
    exact cut u t hu (mark_induction hm free cut t)
termination_by s.length
-- a mark is not empty, so each cut shortens the text
decreasing_by
  subst_vars
  obtain ⟨tail, rfl, -⟩ := hm
  simp only [List.length_append, List.length_cons]
  omega

/-! ## One more round of replacing -/

/-- Fillings do not take a mark away that they leave alone. -/
theorem LeaveAlone.marksIn_le (h : LeaveAlone fs m) (s : Bytes) :
    marksIn m s ≤ marksIn m (fill fs s) := by
  induction s using mark_induction h.mark with
  | free s hs => exact hs ▸ Nat.zero_le _
  | cut u t hu ih =>
    rw [h.fill_cut, marksIn_cut h.mark, marksIn_cut h.mark]
    omega

/-- A filling whose mark does not occur does nothing. -/
theorem fillFrom_unused (k : Nat) (hs : marksIn m s = 0) (v : Bytes) :
    fillFrom (fs ++ [(m, v)]) k s = fillFrom fs k s := by
  induction s generalizing k with
  | nil => cases k <;> rfl
  | cons b r ih =>
    have hr : marksIn m r = 0 := (Nat.add_eq_zero_iff.mp hs).2
    cases k with
    | succ k => exact ih k hr
    | zero =>
      have hnot : ¬ m.isPrefixOf (b :: r) = true := by
        intro hpre
        rw [marksIn, if_pos hpre] at hs
        omega
      have hfind : (fs ++ [(m, v)]).find? (·.1.isPrefixOf (b :: r)) =
          fs.find? (·.1.isPrefixOf (b :: r)) := by
        rw [List.find?_append, List.find?_singleton, if_neg hnot, Option.or_none]
      rw [fillFrom, fillFrom, hfind]
      split
      · rw [ih _ hr]
      · rw [ih 0 hr]

theorem fill_unused (hs : marksIn m s = 0) (v : Bytes) : fill (fs ++ [(m, v)]) s = fill fs s :=
  fillFrom_unused 0 hs v

/-- Replacing a mark that is not there changes nothing. -/
theorem fill_single_unused (hs : marksIn m s = 0) (v : Bytes) : fill [(m, v)] s = s := by
  have hnothing : fill ([] ++ [(m, v)]) s = fill [] s := fill_unused hs v
  exact hnothing.trans (fill_nothing s)

theorem fill_single_cut (hm : IsMark m) (v u t : Bytes) :
    fill [(m, v)] (u ++ (m ++ t)) = fill [(m, v)] u ++ (v ++ fill [(m, v)] t) :=
  (leaveAlone_nothing hm).fill_snoc_cut v u t

/-- A mark that is replaced by itself stays. -/
theorem LeaveAlone.fill_itself (h : LeaveAlone fs m) (s : Bytes) :
    fill (fs ++ [(m, m)]) s = fill fs s := by
  induction s using mark_induction h.mark with
  | free s hs => exact fill_unused hs m
  | cut u t hu ih => rw [h.fill_snoc_cut, h.fill_cut, fill_unused hu, ih]

/-- Replacing a mark by itself changes nothing. -/
theorem fill_single_itself (hm : IsMark m) (s : Bytes) : fill [(m, m)] s = s :=
  ((leaveAlone_nothing hm).fill_itself s).trans (fill_nothing s)

/-- One more filling lengthens a text by what it puts in, and shortens it by the marks that go. -/
theorem LeaveAlone.length_fill_snoc (h : LeaveAlone fs m) (v s : Bytes) :
    (fill (fs ++ [(m, v)]) s).length + marksIn m s * m.length =
      (fill fs s).length + marksIn m s * v.length := by
  induction s using mark_induction h.mark with
  | free s hs => rw [hs, fill_unused hs, Nat.zero_mul, Nat.zero_mul]
  | cut u t hu ih =>
    rw [h.fill_snoc_cut, h.fill_cut, marksIn_cut h.mark, hu, fill_unused hu]
    simp only [List.length_append, Nat.zero_add, Nat.add_mul, Nat.one_mul]
    omega

theorem length_fill_single (hm : IsMark m) (v s : Bytes) :
    (fill [(m, v)] s).length + marksIn m s * m.length = s.length + marksIn m s * v.length := by
  have h := (leaveAlone_nothing hm).length_fill_snoc v s
  rwa [fill_nothing] at h

/-- Replacing a mark by another text of the same length changes a text that holds it. -/
theorem eq_of_fill_single (hm : IsMark m) (hlength : v.length = m.length)
    (h : fill [(m, v)] s = s) :
    marksIn m s = 0 ∨ v = m := by
  by_cases hs : marksIn m s = 0
  · exact .inl hs
  · obtain ⟨u, t, rfl, hu⟩ := exists_cut hs
    rw [fill_single_cut hm, fill_single_unused hu] at h
    exact .inr (List.append_inj (List.append_cancel_left h) hlength).1

/-- If the right marks are replaced, by a text of the same length, then no further mark has come in,
    or the text is the mark itself. -/
theorem LeaveAlone.marksIn_eq (h : LeaveAlone fs m) (hlength : v.length = m.length)
    (hfill : fill [(m, v)] (fill fs s) = fill (fs ++ [(m, v)]) s) :
    marksIn m (fill fs s) = marksIn m s ∨ v = m := by
  induction s using mark_induction h.mark with
  | free s hs =>
    rw [fill_unused hs] at hfill
    rw [hs]
    exact eq_of_fill_single h.mark hlength hfill
  | cut u t hu ih =>
    -- the first piece keeps its length, so the two sides can be compared piece by piece
    have hshort : (fill [(m, v)] (fill fs u)).length = (fill fs u).length := by
      have hcount := length_fill_single h.mark v (fill fs u)
      rw [hlength] at hcount
      omega
    rw [h.fill_cut, fill_single_cut h.mark, h.fill_snoc_cut, fill_unused hu] at hfill
    obtain ⟨hfront, hrest⟩ := List.append_inj hfill hshort
    rcases eq_of_fill_single h.mark hlength hfront with hfree | hv
    · rcases ih (List.append_cancel_left hrest) with hcount | hv
      · left
        rw [h.fill_cut, marksIn_cut h.mark, marksIn_cut h.mark, hfree, hu, hcount]
      · exact .inr hv
    · exact .inr hv

/-- If no further mark has come in, the right marks are replaced. -/
theorem LeaveAlone.fill_fill (h : LeaveAlone fs m) (v : Bytes)
    (hcount : marksIn m (fill fs s) = marksIn m s) :
    fill [(m, v)] (fill fs s) = fill (fs ++ [(m, v)]) s := by
  induction s using mark_induction h.mark with
  | free s hs => rw [fill_single_unused (hcount.trans hs), fill_unused hs]
  | cut u t hu ih =>
    -- marks only become more, so if their number stays for the whole text it stays for each piece
    have hle := h.marksIn_le t
    rw [h.fill_cut, marksIn_cut h.mark, marksIn_cut h.mark] at hcount
    rw [h.fill_cut, fill_single_cut h.mark, h.fill_snoc_cut, fill_unused hu,
      fill_single_unused (by omega), ih (by omega)]

/-- Replacing one more mark afterwards is replacing it together with the others just when no further
    one has come in with them, or the mark is replaced by itself. -/
theorem LeaveAlone.fill_fill_iff (h : LeaveAlone fs m) (v s : Bytes) :
    fill [(m, v)] (fill fs s) = fill (fs ++ [(m, v)]) s ↔
      marksIn m (fill fs s) = marksIn m s ∨ v = m := by
  constructor
  · intro hfill
    by_cases hlength : v.length = m.length
    · exact h.marksIn_eq hlength hfill
    · -- the lengths tell how many marks were replaced
      left
      obtain ⟨extra, hextra⟩ := Nat.exists_eq_add_of_le (h.marksIn_le s)
      have hafter := length_fill_single h.mark v (fill fs s)
      have hmeant := h.length_fill_snoc v s
      rw [hfill, hextra, Nat.add_mul, Nat.add_mul] at hafter
      have heq : extra * m.length = extra * v.length := by omega
      rcases Nat.eq_zero_or_pos extra with hzero | hpos
      · omega
      · exact absurd (Nat.eq_of_mul_eq_mul_left hpos heq).symm hlength
  · rintro (hcount | rfl)
    · exact h.fill_fill v hcount
    · rw [h.fill_itself, fill_single_itself h.mark]

/-! ## Commands -/

theorem inputMark_isMark : IsMark inputMark := ⟨_, rfl, by decide⟩

theorem extensionMark_isMark : IsMark extensionMark := ⟨_, rfl, by decide⟩

theorem rootMark_isMark : IsMark rootMark := ⟨_, rfl, by decide⟩

theorem leaveAlone_extensionMark (p : Bytes) : LeaveAlone [(inputMark, p)] extensionMark :=
  (leaveAlone_nothing extensionMark_isMark).cons inputMark_isMark (fun _ => rfl) p

/-- The mark for the root begins like neither of the other two. -/
theorem leaveAlone_rootMark (p x : Bytes) :
    LeaveAlone [(inputMark, p), (extensionMark, x)] rootMark :=
  ((leaveAlone_nothing rootMark_isMark).cons extensionMark_isMark (fun _ => rfl) x).cons
    inputMark_isMark (fun _ => rfl) p

/-- The command with the path put in. -/
def withPath (command path : Bytes) : Bytes := command.replaceAll inputMark (escapeParens path)

/-- The command with the path put in, and then the extension. -/
def withExtension (command path : Bytes) : Bytes :=
  (withPath command path).replaceAll extensionMark (extension path)

/-- The first round is a filling of the whole command. -/
theorem withPath_eq (command path : Bytes) :
    withPath command path = fill [(inputMark, escapeParens path)] command :=
  replaceAll_eq_fill ..

/-- Putting in the extension afterwards is right just when no further mark for it has come in with
    the path. -/
theorem withExtension_right_iff (command path : Bytes) :
    withExtension command path =
        fill [(inputMark, escapeParens path), (extensionMark, extension path)] command ↔
      marksIn extensionMark (withPath command path) = marksIn extensionMark command ∨
        extension path = extensionMark := by
  rw [withExtension, replaceAll_eq_fill, withPath_eq]
  exact (leaveAlone_extensionMark _).fill_fill_iff (extension path) command

/-- **Marks are replaced at once just when none comes in.** Take a command and a path. Whatever the
    root is, each mark of the command, and nothing else, is replaced by the path, its extension or
    the root, just when putting in the path brings no further mark for the extension, and putting in
    the two brings no further mark for the root. The one exception is an extension that is its own
    mark, which makes no difference. -/
theorem marks_filled_together_iff (command path : Bytes) :
    (∀ root, fillMarks command path root = fillTogether command path root) ↔
      (marksIn extensionMark (withPath command path) = marksIn extensionMark command ∨
        extension path = extensionMark) ∧
      marksIn rootMark (withExtension command path) = marksIn rootMark command := by
  have hroot := leaveAlone_rootMark (escapeParens path) (extension path)
  have hmarks : ∀ root, fillMarks command path root =
      fill [(rootMark, escapeParens root)] (withExtension command path) :=
    fun root => replaceAll_eq_fill ..
  rw [← withExtension_right_iff]
  constructor
  · intro h
    -- with its own mark as the root, the last round changes nothing
    have hright : withExtension command path =
        fill [(inputMark, escapeParens path), (extensionMark, extension path)] command := by
      calc withExtension command path
        _ = fillMarks command path rootMark :=
          (fill_single_itself rootMark_isMark _).symm.trans (hmarks rootMark).symm
        _ = fillTogether command path rootMark := h rootMark
        _ = fill [(inputMark, escapeParens path), (extensionMark, extension path)] command :=
          hroot.fill_itself command
    refine ⟨hright, ?_⟩
    -- with an empty root, it takes every mark away
    have hempty := h []
    rw [hmarks, hright] at hempty
    rw [hright]
    exact ((hroot.fill_fill_iff [] command).mp hempty).resolve_right (by decide)
  · rintro ⟨hright, hcount⟩ root
    rw [hmarks, hright]
    rw [hright] at hcount
    exact hroot.fill_fill (escapeParens root) hcount

/-- The text of the root mark in the name of a directory is replaced by the root. -/
theorem mark_in_path_replaced :
    fillMarks (Bytes.ofString "lint $\x7bINPUT\x7d") (Bytes.ofString "/x/$\x7bROOT\x7d/y.html")
        (Bytes.ofString "/R") = Bytes.ofString "lint /x//R/y.html" ∧
      fillTogether (Bytes.ofString "lint $\x7bINPUT\x7d") (Bytes.ofString "/x/$\x7bROOT\x7d/y.html")
        (Bytes.ofString "/R") = Bytes.ofString "lint /x/$\x7bROOT\x7d/y.html" ∧
      Bytes.ofString "lint /x//R/y.html" ≠ Bytes.ofString "lint /x/$\x7bROOT\x7d/y.html" := by
  refine ⟨by decide +kernel, by decide +kernel, by decide +kernel⟩

/-- A mark can also be completed by what comes in. -/
example : fillMarks (Bytes.ofString "$\x7bR$\x7bFILEEXT\x7d\x7d") (Bytes.ofString "/y.OOT")
    (Bytes.ofString "/R") = Bytes.ofString "/R" := by decide +kernel

end MarkupLint.LintCommand
