/-
  The place of an offset, found by halving the table of line starts.

  The search reads the table by index and slices the text, and either may leave what it reads from:
  this is a `Fault`. `searchStart_spec` carries the invariant of the loop, that everything below
  `lo` starts before the offset and that what stands at `hi` does not. An offset in the text has the
  place that is defined by the lines (`place_eq`), and at any other integer there is a fault
  (`place_faults`).
-/
import MarkupLint.Proofs.GuardedScan
import MarkupLint.Proofs.Places

namespace MarkupLint.Guarded

open Markup

/-! ## The search -/

/-- The first index from `lo` on, and before `hi`, whose start is not below the offset, or else
    `hi`; by halving. -/
def searchStart (starts : List Nat) (offset : Int) (lo hi : Nat) : Except Fault Nat :=
  if lo < hi then do
    let start ← elementAt starts ((lo + hi) / 2 : Nat)
    if start < offset then searchStart starts offset ((lo + hi) / 2 + 1) hi
    else searchStart starts offset lo ((lo + hi) / 2)
  else pure lo
termination_by hi - lo
decreasing_by all_goals omega

/-- The line of an offset as an index: where the offset is the start of a line, and else one before
    the next start. -/
def lineIndex (starts : List Nat) (offset : Int) : Except Fault Int := do
  let i ← searchStart starts offset 0 starts.length
  if i < starts.length then
    let start ← elementAt starts i
    pure (if start = offset then i else i - 1)
  else pure (i - 1)

/-- The place of an offset. -/
def place (s : Source) (offset : Int) : Except Fault Place := do
  let line ← lineIndex s.starts.toList offset
  let start ← elementAt s.starts.toList line
  let before ← slice s.text start offset
  pure ⟨line.toNat, Utf8.units16 before⟩

section Search

variable {starts : List Nat} {offset : Int}

/-- The index lies behind all starts below the offset, and before all others. -/
structure Splits (starts : List Nat) (offset : Int) (i : Nat) : Prop where
  le_length : i ≤ starts.length
  below : ∀ j x, j < i → starts[j]? = some x → (x : Int) < offset
  above : ∀ x, starts[i]? = some x → offset ≤ x

/-- The search stays inside of the list and ends where it splits. Everything before `lo` is below
    the offset all along, and what stands at `hi` is not. -/
theorem searchStart_spec {lo hi : Nat} (hsorted : starts.Pairwise (· < ·)) (hle : lo ≤ hi)
    (hhi : hi ≤ starts.length) (hbelow : ∀ j x, j < lo → starts[j]? = some x → (x : Int) < offset)
    (habove : ∀ x, starts[hi]? = some x → offset ≤ x) :
    ∃ i, searchStart starts offset lo hi = .ok i ∧ Splits starts offset i := by
  rw [searchStart]
  by_cases hlt : lo < hi
  · have hmid : (lo + hi) / 2 < starts.length := by omega
    obtain ⟨start, hstart⟩ : ∃ start, starts[(lo + hi) / 2]? = some start :=
      ⟨_, List.getElem?_eq_getElem hmid⟩
    rw [if_pos hlt, elementAt_of_some hstart, ok_bind]
    -- one half is left: the upper one behind the middle, or the lower one up to it
    by_cases hcompare : (start : Int) < offset
    · rw [if_pos hcompare]
      apply searchStart_spec hsorted (by omega) hhi ?_ habove
      intro j x hj hx
      -- up to the middle the starts rise
      obtain ⟨hjlen, rfl⟩ := List.getElem?_eq_some_iff.mp hx
      obtain ⟨_, rfl⟩ := List.getElem?_eq_some_iff.mp hstart
      rcases Nat.lt_or_eq_of_le (Nat.le_of_lt_succ hj) with hjm | rfl
      · have hrise := List.pairwise_iff_getElem.mp hsorted j _ hjlen hmid hjm
        omega
      · exact hcompare
    · rw [if_neg hcompare]
      apply searchStart_spec hsorted (by omega) (by omega) hbelow
      intro x hx
      rw [hstart] at hx
      obtain rfl := Option.some.inj hx
      omega
  · obtain rfl : lo = hi := by omega
    rw [if_neg hlt]
    exact ⟨lo, rfl, hhi, hbelow, habove⟩
termination_by hi - lo
decreasing_by all_goals omega

/-- Over the whole list there is nothing to assume. -/
theorem searchStart_splits (hsorted : starts.Pairwise (· < ·)) (offset : Int) :
    ∃ i, searchStart starts offset 0 starts.length = .ok i ∧ Splits starts offset i := by
  apply searchStart_spec hsorted (Nat.zero_le _) (Nat.le_refl _)
  · intro j x hj
    exact absurd hj (Nat.not_lt_zero j)
  · simp

/-- The `k`-th start is the last one that is not behind the offset. -/
structure OnLine (starts : List Nat) (offset : Int) (k start : Nat) : Prop where
  start_at : starts[k]? = some start
  le : (start : Int) ≤ offset
  next : ∀ x, starts[k + 1]? = some x → offset < x

/-- An offset at which a line starts is on that line, since the next one starts later. -/
theorem onLine_of_start {i x : Nat} (hsorted : starts.Pairwise (· < ·)) (hx : starts[i]? = some x)
    (hfound : (x : Int) = offset) : OnLine starts offset i x := by
  refine ⟨hx, by omega, fun y hy => ?_⟩
  obtain ⟨hi, rfl⟩ := List.getElem?_eq_some_iff.mp hx
  obtain ⟨hnext, rfl⟩ := List.getElem?_eq_some_iff.mp hy
  have hrise := List.pairwise_iff_getElem.mp hsorted i (i + 1) hi hnext (Nat.lt_succ_self i)
  omega

/-- Any other offset is on the line before the index, and there is one. -/
theorem Splits.onLine_before {i : Nat} (h : Splits starts offset i) (hzero : starts[0]? = some 0)
    (hoffset : 0 ≤ offset) (hne : ∀ x, starts[i]? = some x → (x : Int) ≠ offset) :
    ∃ k start, i = k + 1 ∧ OnLine starts offset k start := by
  obtain ⟨hlen, hbelow, habove⟩ := h
  cases i with
  | zero =>
    have hge := habove 0 hzero
    have hne := hne 0 hzero
    omega
  | succ k =>
    obtain ⟨start, hstart⟩ : ∃ start, starts[k]? = some start :=
      ⟨_, List.getElem?_eq_getElem (by omega)⟩
    have hlt := hbelow k start (Nat.lt_succ_self k) hstart
    refine ⟨k, start, rfl, hstart, by omega, fun x hx => ?_⟩
    have hge := habove x hx
    have hne := hne x hx
    omega

/-- The index that is found is that of the line which the offset is on. -/
theorem lineIndex_spec (hsorted : starts.Pairwise (· < ·)) (hzero : starts[0]? = some 0)
    (hoffset : 0 ≤ offset) :
    ∃ k start : Nat, lineIndex starts offset = .ok k ∧ OnLine starts offset k start := by
  obtain ⟨i, hsearch, hsplits⟩ := searchStart_splits hsorted offset
  have hpred : ∀ k : Nat, ((k + 1 : Nat) : Int) - 1 = k := by omega
  unfold lineIndex
  rw [hsearch, ok_bind]
  -- the search ended at a start, which is the offset or behind it, or behind all starts
  by_cases hi : i < starts.length
  · obtain ⟨x, hx⟩ : ∃ x, starts[i]? = some x := ⟨_, List.getElem?_eq_getElem hi⟩
    rw [if_pos hi, elementAt_of_some hx, ok_bind]
    by_cases hfound : (x : Int) = offset
    · rw [if_pos hfound]
      exact ⟨i, x, rfl, onLine_of_start hsorted hx hfound⟩
    · have hne : ∀ y, starts[i]? = some y → (y : Int) ≠ offset := by
        intro y hy
        rw [hx] at hy
        rwa [← Option.some.inj hy]
      obtain ⟨k, start, rfl, hline⟩ := hsplits.onLine_before hzero hoffset hne
      rw [if_neg hfound, hpred]
      exact ⟨k, start, rfl, hline⟩
  · have hne : ∀ y, starts[i]? = some y → (y : Int) ≠ offset := fun y hy =>
      absurd (List.getElem?_eq_some_iff.mp hy).1 hi
    obtain ⟨k, start, rfl, hline⟩ := hsplits.onLine_before hzero hoffset hne
    rw [if_neg hi, hpred]
    exact ⟨k, start, rfl, hline⟩

end Search

/-! ## Places -/

section Places

variable {text : Bytes} {offset : Nat}

theorem starts_ofText (text : Bytes) :
    (Source.ofText text).starts.toList = startsFrom 0 (Bytes.splitAt Bytes.newline text) := by
  simp [Source.ofText]

/-- The first line starts at zero. -/
theorem zero_starts (text : Bytes) :
    (startsFrom 0 (Bytes.splitAt Bytes.newline text))[0]? = some 0 := by
  obtain ⟨l, ls, hlines⟩ := exists_splitAt Bytes.newline text
  rw [hlines]
  rfl

/-- The place of an offset in the text is found without a fault. -/
theorem place_eq (h : offset ≤ text.length) :
    place (.ofText text) offset = .ok ((Source.ofText text).place offset) := by
  obtain ⟨k, start, hindex, ⟨hstart, hle, hnext⟩⟩ :=
    lineIndex_spec (startsFrom_sorted _) (zero_starts text) (Int.natCast_nonneg offset)
  have hstarts : (Source.ofText text).starts[k]? = some start := by
    simpa [Source.ofText] using hstart
  have hline : (Source.ofText text).lineAt offset = k := by
    refine Source.lineAt_eq hstarts (by omega) fun y hy => ?_
    have hlt := hnext y (by simpa [Source.ofText] using hy)
    omega
  -- the slice of the text is the part of the line before the offset
  obtain ⟨l, start', hl, hstart', -, hge, hat⟩ := exists_line text offset 0 h
  rw [← Source.lineAt_ofText h, hline] at hl hstart'
  obtain rfl : start = start' := by
    rw [hstart, Nat.zero_add] at hstart'
    exact Option.some.inj hstart'
  have hlines : (Source.ofText text).lines[k]? = some l := by simpa [Source.ofText] using hl
  have hslice : (text.drop start).take (offset - start) = l.take (offset - start) := by
    obtain ⟨r, hr⟩ := hat.piece
    rw [← hr, List.take_append_of_le_length (by omega)]
  unfold place
  rw [starts_ofText, hindex, ok_bind, elementAt_of_some hstart, ok_bind]
  show (slice text start offset >>= fun before =>
      pure (⟨(k : Int).toNat, Utf8.units16 before⟩ : Place)) = _
  rw [slice_of_le (by omega) h, ok_bind, hslice, pure_eq_ok, Int.toNat_natCast]
  simp [Source.place, hline, hlines, hstarts]

/-- Before the text there is no line, and behind it nothing can be sliced off. -/
theorem place_faults {offset : Int} (h : ¬ (0 ≤ offset ∧ offset ≤ text.length)) (p : Place) :
    place (.ofText text) offset ≠ .ok p := by
  unfold place
  rw [starts_ofText]
  by_cases hnonneg : 0 ≤ offset
  · obtain ⟨k, start, hindex, hline⟩ :=
      lineIndex_spec (startsFrom_sorted _) (zero_starts text) hnonneg
    have hguard : ¬ ((0 : Int) ≤ start ∧ (start : Int) ≤ offset ∧ offset ≤ text.length) := by omega
    rw [hindex, ok_bind, elementAt_of_some hline.start_at, ok_bind]
    show (slice text start offset >>= fun before =>
        pure (⟨(k : Int).toNat, Utf8.units16 before⟩ : Place)) ≠ _
    rw [slice, if_neg hguard, error_bind]
    simp
  · -- all starts are above, so that the search ends at the first one
    obtain ⟨i, hsearch, -, hbelow, -⟩ := searchStart_splits (startsFrom_sorted _) offset
    obtain rfl : i = 0 := by
      refine Nat.eq_zero_of_not_pos fun hpos => ?_
      have hlt := hbelow 0 0 hpos (zero_starts text)
      omega
    have hlen : 0 < (startsFrom 0 (Bytes.splitAt Bytes.newline text)).length :=
      (List.getElem?_eq_some_iff.mp (zero_starts text)).1
    have hne : ¬ ((0 : Nat) : Int) = offset := by omega
    have hindex : lineIndex (startsFrom 0 (Bytes.splitAt Bytes.newline text)) offset =
        .ok (-1) := by
      unfold lineIndex
      rw [hsearch, ok_bind, if_pos hlen, elementAt_of_some (zero_starts text), ok_bind, if_neg hne]
      rfl
    rw [hindex, ok_bind, elementAt, if_neg (by decide), error_bind]
    simp

/-- Of all integers, those have a place that lie in the text, its end included; at any other there
    is a fault. -/
theorem place_ok_iff {offset : Int} {p : Place} :
    place (.ofText text) offset = .ok p ↔ (Source.ofText text).place? offset = some p := by
  unfold Source.place?
  split
  · rename_i h
    obtain ⟨n, rfl⟩ := Int.eq_ofNat_of_zero_le h.1
    have hle : n ≤ text.length := Int.ofNat_le.mp h.2
    rw [place_eq hle]
    simp
  · rename_i h
    constructor
    · intro hp
      exact absurd hp (place_faults h p)
    · intro hp
      exact absurd hp (by simp)

end Places

end MarkupLint.Guarded
