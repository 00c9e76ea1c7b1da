/-
  Decimal digits: a number is read back from the digits that it is written with, with zeros in
  front or without. Numbers in JSON, in codes of issues and in options all rest on this.
-/
import MarkupLint.Json.Reader
import MarkupLint.Rule.NameStyle

namespace MarkupLint

variable {n : Nat} {c : Char}

/-- The digits of names are the decimal digits. -/
theorem NameStyle.isDigit_iff : NameStyle.isDigit c = true ↔ c.isDigit = true := by
  simp only [NameStyle.isDigit, Char.isDigit, Bool.and_eq_true, decide_eq_true_eq]
  rfl

/-- The digits of numbers in JSON are the decimal digits. -/
theorem Json.isDigit_iff : Json.isDigit c = true ↔ c.isDigit = true := NameStyle.isDigit_iff

/-- A run of digits is read place by place, each place counting ten times the next one. -/
theorem JsonNumber.digitsValue_eq (start : Nat) (ds : List Char) :
    JsonNumber.digitsValue start ds = Nat.ofDigitChars 10 ds start := by
  unfold JsonNumber.digitsValue Nat.ofDigitChars
  congr 1
  funext m c
  rw [Nat.mul_comm]

/-- A number is read from its digits. -/
theorem JsonNumber.digitsValue_toDigits (n : Nat) :
    JsonNumber.digitsValue 0 (Nat.toDigits 10 n) = n := by
  rw [JsonNumber.digitsValue_eq]
  exact Nat.ofDigitChars_ten_toDigits

/-- An integer is read from its sign and its digits. -/
theorem JsonNumber.toInt?_ofInt (n : Int) : (JsonNumber.ofInt n).toInt? = some n := by
  show some (if decide (n < 0) = true then -(n.natAbs : Int) else (n.natAbs : Int)) = some n
  split
  · rename_i h
    have h := of_decide_eq_true h
    rw [show -(n.natAbs : Int) = n by omega]
  · rename_i h
    have h : ¬ n < 0 := fun hn => h (decide_eq_true hn)
    rw [show (n.natAbs : Int) = n by omega]

/-- A number is written with at least one digit. -/
theorem exists_toDigits (n : Nat) : ∃ c ds, Nat.toDigits 10 n = c :: ds ∧ c.isDigit = true := by
  obtain ⟨c, ds, hdigits⟩ := List.exists_cons_of_ne_nil (Nat.toDigits_ne_nil (n := n) (b := 10))
  have hmem : c ∈ Nat.toDigits 10 n := hdigits ▸ List.mem_cons_self
  exact ⟨c, ds, hdigits, Nat.isDigit_of_mem_toDigits (by decide) (by decide) hmem⟩

/-- Only zero is written with a zero in front. -/
theorem head?_toDigits (h : 0 < n) : (Nat.toDigits 10 n).head? ≠ some '0' := by
  induction n using Nat.strongRecOn with
  | ind n ih =>
    by_cases hsmall : n < 10
    · rw [Nat.toDigits_of_lt_base hsmall]
      have hdigit : ∀ d < 10, 0 < d → [Nat.digitChar d].head? ≠ some '0' := by decide
      exact hdigit n hsmall h
    · -- the first digit is that of a tenth of the number
      rw [Nat.toDigits_of_base_le (by decide) (by omega), List.head?_append]
      have hhead := ih (n / 10) (by omega) (by omega)
      cases hfirst : (Nat.toDigits 10 (n / 10)).head? with
      | none => exact absurd (List.head?_eq_none_iff.1 hfirst) Nat.toDigits_ne_nil
      | some d => rwa [hfirst] at hhead

/-- Zeros in front are digits too. -/
theorem isDigit_of_mem_padded {k : Nat} (h : c ∈ List.replicate k '0' ++ Nat.toDigits 10 n) :
    c.isDigit = true := by
  rcases List.mem_append.mp h with hzero | hdigit
  · rw [List.eq_of_mem_replicate hzero]
    rfl
  · exact Nat.isDigit_of_mem_toDigits (by decide) (by decide) hdigit

/-- Zeros in front do not change a number. -/
theorem ofDigitChars_padded (k n : Nat) :
    Nat.ofDigitChars 10 (List.replicate k '0' ++ Nat.toDigits 10 n) 0 = n := by
  induction k with
  | zero => exact Nat.ofDigitChars_ten_toDigits
  | succ k ih => exact ih

end MarkupLint
