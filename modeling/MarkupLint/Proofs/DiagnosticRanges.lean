/-
  The ranges of diagnostics. A range is in order when its coordinates are not negative and it ends
  behind its start; the start should be on the line that was reported, one further and less the
  offset, or on the first line if that is before it.

  Two sums are taken on the way, one before the line is kept from going below zero and one after it,
  and either may leave the 64-bit numbers. `diagnosticLine_eq` says where the first one leads in
  each case: from below the numbers to a line near the last one, from above them to the first line.
  The second one leads from the last number to the least. So ranges are in order just when no sum
  wraps around (`Issue.SumsFit`).
-/
import Mathlib.Data.List.Forall2
import MarkupLint.Diagnosis

namespace MarkupLint

/-! ## Sums that wrap around -/

/-- A sum wraps around to the 64-bit number that is some multiple of `2 ^ 64` away from it. -/
theorem wrap64_eq_of_fits {n : Int} (k : Int) (h : fits64 (n + k * 18446744073709551616) = true) :
    wrap64 n = n + k * 18446744073709551616 := by
  have hsame : wrap64 (n + k * 18446744073709551616) = wrap64 n := Int.add_mul_bmod_self_right n k _
  rw [← hsame]
  exact wrap64_of_fits h

/-- A number before the last one has a next one. -/
theorem wrap64_succ {n : Int} (hlow : 0 ≤ n) (hhigh : n < max64) : wrap64 (n + 1) = n + 1 := by
  apply wrap64_of_fits
  rw [fits64_iff]
  unfold min64
  omega

/-- Behind the last number comes the least, so what comes behind a number is negative for that one
    only. -/
theorem wrap64_succ_nonneg_iff {n : Int} (hlow : 0 ≤ n) (hhigh : n ≤ max64) :
    0 ≤ wrap64 (n + 1) ↔ n < max64 := by
  constructor
  · intro h
    rcases Int.lt_or_eq_of_le hhigh with hlt | rfl
    · exact hlt
    · exact absurd h (by decide)
  · intro hlt
    rw [wrap64_succ hlow hlt]
    omega

/-! ## Ranges -/

/-- One position stands before another. -/
def Position.Before (p q : Position) : Prop :=
  p.line < q.line ∨ p.line = q.line ∧ p.character < q.character

/-- No coordinate is negative, and the range ends behind its start. -/
structure Range.WellFormed (r : Range) : Prop where
  start_line : 0 ≤ r.start.line
  start_character : 0 ≤ r.start.character
  stop_line : 0 ≤ r.stop.line
  stop_character : 0 ≤ r.stop.character
  before : r.start.Before r.stop

namespace Issue

variable {s : Settings} {i : Issue}

/-- The line that the issue is shown on, before it is kept from going below zero. -/
def shownLine (s : Settings) (i : Issue) : Int := i.line + 1 - s.lintOffset

/-- The diagnostic shows the issue: its range is in order and starts on the right line. -/
structure ShownBy (s : Settings) (i : Issue) (d : Diagnostic) : Prop where
  wellFormed : d.range.WellFormed
  start_line : d.range.start.line = max (i.shownLine s) 0

/-- No sum on the way to the range of the issue leaves the 64-bit numbers. -/
structure SumsFit (s : Settings) (i : Issue) : Prop where
  line : fits64 (i.shownLine s) = true
  /-- there is a next line in line mode, and else a next column -/
  stop : if s.rangeMode = "line" then i.shownLine s < max64 else i.column < max64

/-- The line of a diagnostic: a line below the 64-bit numbers comes out near the end of them, and
    one above them as the first line. -/
theorem diagnosticLine_eq (hline : fits64 i.line = true) (hoffset : fits64 s.lintOffset = true) :
    i.diagnosticLine s =
      if i.shownLine s < min64 then i.shownLine s + 18446744073709551616
      else if i.shownLine s ≤ max64 then max (i.shownLine s) 0 else 0 := by
  rw [fits64_iff] at hline hoffset
  unfold diagnosticLine
  show max (wrap64 (i.shownLine s)) 0 = _
  -- two 64-bit numbers differ by less than `2 ^ 64`, so one multiple of it brings the sum back
  have hbounds : min64 + 1 - max64 ≤ i.shownLine s ∧ i.shownLine s ≤ max64 + 1 - min64 := by
    unfold shownLine
    omega
  unfold min64 max64 at *
  split
  · have hfits : fits64 (i.shownLine s + 1 * 18446744073709551616) = true := by
      rw [fits64_iff]
      unfold min64 max64
      omega
    rw [wrap64_eq_of_fits 1 hfits]
    omega
  · split
    · rw [wrap64_of_fits (by rw [fits64_iff]; unfold min64 max64; omega)]
    · -- at most `2 ^ 64`, so the sum comes out at zero or below
      have hfits : fits64 (i.shownLine s + (-1) * 18446744073709551616) = true := by
        rw [fits64_iff]
        unfold min64 max64
        omega
      rw [wrap64_eq_of_fits (-1) hfits]
      omega

theorem diagnosticLine_nonneg (s : Settings) (i : Issue) : 0 ≤ i.diagnosticLine s :=
  Int.le_max_right _ _

/-- The line of a diagnostic is a 64-bit number. -/
theorem diagnosticLine_le (s : Settings) (i : Issue) : i.diagnosticLine s ≤ max64 := by
  have hfits := (fits64_iff.mp (fits64_wrap64 (i.line + 1 - s.lintOffset))).2
  have hmax : (0 : Int) ≤ max64 := by decide
  unfold diagnosticLine
  omega

/-- The line is the right one just when the sum fits. -/
theorem diagnosticLine_right_iff (hline : fits64 i.line = true)
    (hoffset : fits64 s.lintOffset = true) :
    i.diagnosticLine s = max (i.shownLine s) 0 ↔ fits64 (i.shownLine s) = true := by
  have hlow : min64 + 1 - max64 ≤ i.shownLine s := by
    rw [fits64_iff] at hline hoffset
    unfold shownLine
    omega
  rw [diagnosticLine_eq hline hoffset, fits64_iff]
  unfold min64 max64 at *
  split
  · omega
  · split <;> omega

theorem diagnosticRange_start_line (s : Settings) (i : Issue) :
    (i.diagnosticRange s).start.line = i.diagnosticLine s := by
  unfold diagnosticRange
  split <;> rfl

/-- The range is in order just when there is a next line, or a next column, after the one it starts
    at. -/
theorem diagnosticRange_wellFormed_iff (hcolumn : fits64 i.column = true) :
    (i.diagnosticRange s).WellFormed ↔
      if s.rangeMode = "line" then i.diagnosticLine s < max64 else i.column < max64 := by
  have hline := diagnosticLine_nonneg s i
  unfold diagnosticRange
  split
  · -- in line mode the range ends at the start of the next line
    constructor
    · intro h
      exact (wrap64_succ_nonneg_iff hline (diagnosticLine_le s i)).mp h.stop_line
    · intro hlt
      have hnext := wrap64_succ hline hlt
      refine ⟨hline, Int.le_refl 0, ?_, Int.le_refl 0, .inl ?_⟩
      · show 0 ≤ wrap64 _
        omega
      · show i.diagnosticLine s < wrap64 _
        omega
  · -- else it ends at the next column of the same line
    have hmax : (0 : Int) < max64 := by decide
    have hfits := (fits64_iff.mp hcolumn).2
    have hlow : 0 ≤ max i.column 0 := Int.le_max_right _ _
    have hhigh : max i.column 0 ≤ max64 := by omega
    constructor
    · intro h
      have hlt := (wrap64_succ_nonneg_iff hlow hhigh).mp h.stop_character
      omega
    · intro hlt
      have hnext := wrap64_succ hlow (by omega)
      refine ⟨hline, hlow, hline, ?_, .inr ⟨rfl, ?_⟩⟩
      · show 0 ≤ wrap64 _
        omega
      · show max i.column 0 < wrap64 _
        omega

/-- The diagnostic of an issue shows it just when no sum wraps around. -/
theorem shownBy_diagnose_iff (hline : fits64 i.line = true) (hcolumn : fits64 i.column = true)
    (hoffset : fits64 s.lintOffset = true) : i.ShownBy s (i.diagnose s) ↔ i.SumsFit s := by
  have hstart : (i.diagnose s).range.start.line = max (i.shownLine s) 0 ↔
      fits64 (i.shownLine s) = true := by
    rw [← diagnosticLine_right_iff hline hoffset]
    show (i.diagnosticRange s).start.line = _ ↔ _
    rw [diagnosticRange_start_line]
  -- once the line is the right one, the end of it is that of the reported line
  have hstop : fits64 (i.shownLine s) = true → ((i.diagnose s).range.WellFormed ↔
      if s.rangeMode = "line" then i.shownLine s < max64 else i.column < max64) := by
    intro hfits
    show (i.diagnosticRange s).WellFormed ↔ _
    rw [diagnosticRange_wellFormed_iff hcolumn, (diagnosticLine_right_iff hline hoffset).mpr hfits]
    have hmax : (0 : Int) < max64 := by decide
    split <;> omega
  constructor
  · rintro ⟨hwell, hline⟩
    have hfits := hstart.mp hline
    exact ⟨hfits, (hstop hfits).mp hwell⟩
  · rintro ⟨hfits, hnext⟩
    exact ⟨(hstop hfits).mpr hnext, hstart.mpr hfits⟩

end Issue

/-! ## Lists of issues -/

open Issue

/-- **Ranges are in order just where no sum wraps around.** Take any list of issues with any 64-bit
    lines and columns, and any settings with a 64-bit offset. There is one diagnostic for each
    issue, in order, with its code and its message. Its coordinates are not negative, it ends behind
    its start, and it starts on the line that the integers give, not below zero, just when the sums
    for it are 64-bit numbers. -/
theorem ranges_wellFormed_iff (s : Settings) (issues : List Issue)
    (hoffset : fits64 s.lintOffset = true)
    (hissues : ∀ i ∈ issues, fits64 i.line = true ∧ fits64 i.column = true) :
    List.Forall₂ (fun i d => (d.code = i.diagnosticCode ∧ d.message = i.message) ∧
      (i.ShownBy s d ↔ i.SumsFit s))
      issues (diagnoseAll s issues) := by
  unfold diagnoseAll
  rw [List.forall₂_map_right_iff, List.forall₂_same]
  intro i hi
  obtain ⟨hline, hcolumn⟩ := hissues i hi
  exact ⟨⟨rfl, rfl⟩, shownBy_diagnose_iff hline hcolumn hoffset⟩

/-- Two issues at the last line and column that can be shown, and one a column further. -/
theorem ranges_wellFormed_iff_lastColumn :
    ∃ first second third : Diagnostic,
      diagnoseAll { lintOffset := 1 } [{ line := max64, column := 0 },
        { line := 0, column := max64 - 1 },
        { line := 0, column := max64 }] = [first, second, third] ∧
      ShownBy { lintOffset := 1 } { line := max64, column := 0 } first ∧
      ShownBy { lintOffset := 1 } { line := 0, column := max64 - 1 } second ∧
      ¬ ShownBy { lintOffset := 1 } { line := 0, column := max64 } third := by
  refine ⟨_, _, _, rfl, ?_⟩
  have hall := ranges_wellFormed_iff { lintOffset := 1 } [{ line := max64, column := 0 },
    { line := 0, column := max64 - 1 }, { line := 0, column := max64 }] (by decide) (by decide)
  obtain ⟨⟨-, hfirst⟩, hrest⟩ := List.forall₂_cons.mp hall
  obtain ⟨⟨-, hsecond⟩, hrest⟩ := List.forall₂_cons.mp hrest
  obtain ⟨⟨-, hthird⟩, -⟩ := List.forall₂_cons.mp hrest
  refine ⟨hfirst.mpr ⟨by decide, by decide⟩, hsecond.mpr ⟨by decide, by decide⟩, fun h => ?_⟩
  -- there is no column behind the last one
  exact absurd (hthird.mp h).stop (by decide)

/-- An issue far before the first line is shown near the last one. -/
theorem line_before_first_shown_last :
    fits64 min64 = true ∧ fits64 2 = true ∧
    (Issue.diagnose { lintOffset := 2 } { line := min64, column := 0 }).range.start.line = max64 ∧
    ¬ ShownBy { lintOffset := 2 } { line := min64, column := 0 }
      (Issue.diagnose { lintOffset := 2 } { line := min64, column := 0 }) := by
  refine ⟨by decide, by decide, by decide, fun h => ?_⟩
  exact absurd h.start_line (by decide)

end MarkupLint
