/-
  Signed 64-bit numbers, as integers: which integers are such numbers, and the one that a sum beyond
  their range wraps around to.
-/

namespace MarkupLint

/-- The 64-bit number that an integer wraps around to. -/
def wrap64 (n : Int) : Int := n.bmod 18446744073709551616

/-- The least 64-bit number. -/
def min64 : Int := -9223372036854775808

/-- The largest 64-bit number. -/
def max64 : Int := 9223372036854775807

/-- The integer is a 64-bit number. -/
def fits64 (n : Int) : Bool := min64 ≤ n && n ≤ max64

theorem fits64_iff {n : Int} : fits64 n = true ↔ min64 ≤ n ∧ n ≤ max64 := by
  simp [fits64]

/-- A number that fits stays as it is. -/
theorem wrap64_of_fits {n : Int} (h : fits64 n = true) : wrap64 n = n := by
  obtain ⟨h1, h2⟩ := fits64_iff.1 h
  unfold min64 at h1
  unfold max64 at h2
  exact Int.bmod_eq_of_le (by omega) (by omega)

/-- What an integer wraps around to fits. -/
theorem fits64_wrap64 (n : Int) : fits64 (wrap64 n) = true := by
  rw [fits64_iff]
  unfold wrap64 min64 max64
  have h1 := @Int.le_bmod n 18446744073709551616 (by decide)
  have h2 := @Int.bmod_lt n 18446744073709551616 (by decide)
  omega

end MarkupLint
