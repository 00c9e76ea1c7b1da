/-
  Naming styles as languages.

  Each style has a regular language, and its reader admits the words of that language
  (`accepts_iff_mem_language`). The two styles with a separator read runs, about which all is said
  by one equation (`runs_eq`): they are over, or go on.

  The styles are one within the other. What the strictest one admits, all admit. And what any two
  others admit has only characters that both admit, which are lower-case letters and digits, and so
  it is of the strictest style (`lowercase_iff`).
-/
import Mathlib.Computability.Language
import MarkupLint.Rule.NameStyle

namespace MarkupLint
namespace NameStyle

open Computability

variable {c sep : Char} {r w name : List Char} {l : Language Char} {p : Char → Bool}
  {s t : NameStyle}

/-! ## The languages of the styles -/

/-- A lower-case letter or a digit. -/
def isPlain (c : Char) : Bool := isLower c || isDigit c

/-- A letter or a digit. -/
def isAlphanumeric (c : Char) : Bool := isLetter c || isDigit c

/-- The words of one character of a class. -/
def one (p : Char → Bool) : Language Char := {w | ∃ c, p c = true ∧ w = [c]}

/-- A run of lower-case letters and digits, and further ones that are not empty, each behind a
    separator. -/
def runs (sep : Char) : Language Char :=
  (one isPlain)∗ * (one (· == sep) * (one isPlain * (one isPlain)∗))∗

/-- The names of a style, as a regular language. -/
def language : NameStyle → Language Char
  | .lowercase => one isLower * (one isPlain)∗
  | .underscore => one isLower * runs '_'
  | .dash => one isLower * runs '-'
  | .camel => one isLetter * (one isAlphanumeric)∗

theorem nil_not_mem_one_mul : [] ∉ one p * l := by
  rw [Language.mem_mul]
  rintro ⟨a, ⟨c, -, rfl⟩, b, -, heq⟩
  exact absurd heq (by simp)

/-- A word is a character of the class and a word of the other language. -/
theorem cons_mem_one_mul : c :: r ∈ one p * l ↔ p c = true ∧ r ∈ l := by
  rw [Language.mem_mul]
  constructor
  · rintro ⟨a, ⟨d, hd, rfl⟩, b, hb, heq⟩
    obtain ⟨rfl, rfl⟩ := List.cons.inj heq
    exact ⟨hd, hb⟩
  · rintro ⟨hc, hr⟩
    exact ⟨[c], ⟨c, hc, rfl⟩, r, hr, rfl⟩

/-- A word of a repeated class has its characters in the class. -/
theorem mem_star_one_iff : w ∈ (one p)∗ ↔ w.all p = true := by
  induction w with
  | nil => exact ⟨fun _ => rfl, fun _ => Language.nil_mem_kstar _⟩
  | cons c r ih =>
    rw [← Language.one_add_self_mul_kstar_eq_kstar, Language.mem_add, Language.mem_one,
      cons_mem_one_mul, ih, List.all_cons, Bool.and_eq_true]
    simp

/-- Runs are over, or go on with a separator and a character, or with a character. -/
theorem runs_eq (sep : Char) :
    runs sep = 1 + one (· == sep) * (one isPlain * runs sep) + one isPlain * runs sep := by
  let further : Language Char := (one (· == sep) * (one isPlain * (one isPlain)∗))∗
  have hfurther : further = 1 + one (· == sep) * (one isPlain * runs sep) := by
    -- the further runs are over, or begin with a separator
    calc further
        = 1 + one (· == sep) * (one isPlain * (one isPlain)∗) * further :=
          (Language.one_add_self_mul_kstar_eq_kstar _).symm
      _ = 1 + one (· == sep) * (one isPlain * runs sep) := by rw [mul_assoc, mul_assoc]; rfl
  calc runs sep
      = (1 + one isPlain * (one isPlain)∗) * further := by
        rw [Language.one_add_self_mul_kstar_eq_kstar]; rfl
    _ = further + one isPlain * runs sep := by rw [add_mul, one_mul, mul_assoc]; rfl
    _ = 1 + one (· == sep) * (one isPlain * runs sep) + one isPlain * runs sep := by rw [hfurther]

theorem cons_mem_runs :
    c :: r ∈ runs sep ↔ c = sep ∧ r ∈ one isPlain * runs sep ∨ isPlain c = true ∧ r ∈ runs sep := by
  rw [runs_eq, Language.mem_add, Language.mem_add, Language.mem_one, cons_mem_one_mul,
    cons_mem_one_mul, beq_iff_eq, ← runs_eq]
  simp

/-- The reader of joined runs stands inside of a run, or where one has to begin. -/
theorem joined_iff (hsep : isPlain sep = false) (r : List Char) :
    (joined sep true r = true ↔ r ∈ runs sep) ∧
      (joined sep false r = true ↔ r ∈ one isPlain * runs sep) := by
  induction r with
  | nil =>
    have hnil : [] ∈ runs sep :=
      Language.mem_mul.mpr ⟨[], Language.nil_mem_kstar _, [], Language.nil_mem_kstar _, rfl⟩
    exact ⟨⟨fun _ => hnil, fun _ => rfl⟩, fun h => absurd h (by simp [joined]),
      fun h => absurd h nil_not_mem_one_mul⟩
  | cons c r ih =>
    obtain ⟨hinside, hbegin⟩ := ih
    have hplain : (isLower c || isDigit c) = isPlain c := rfl
    rw [cons_mem_runs, cons_mem_one_mul, ← hinside, ← hbegin]
    -- the separator is no character of a run, so it is one or the other
    by_cases hc : c = sep
    · subst hc
      simp [joined, hsep]
    · simp [joined, hc, hplain]

/-- **A style admits the names of its language.** -/
theorem accepts_iff_mem_language (style : NameStyle) (name : List Char) :
    style.accepts name = true ↔ name ∈ style.language := by
  cases name with
  | nil =>
    refine ⟨fun h => absurd h (by simp [accepts]), fun h => ?_⟩
    cases style <;> exact absurd h nil_not_mem_one_mul
  | cons c r =>
    cases style with
    | lowercase =>
      rw [language, cons_mem_one_mul, mem_star_one_iff, accepts, Bool.and_eq_true]
      rfl
    | underscore =>
      rw [language, cons_mem_one_mul, ← (joined_iff (by decide) r).1, accepts, Bool.and_eq_true]
    | dash =>
      rw [language, cons_mem_one_mul, ← (joined_iff (by decide) r).1, accepts, Bool.and_eq_true]
    | camel =>
      rw [language, cons_mem_one_mul, mem_star_one_iff, accepts, Bool.and_eq_true]
      rfl

/-! ## The strictest style -/

/-- The characters that can stand in the names of a style. -/
def admits : NameStyle → Char → Bool
  | .lowercase, c => isPlain c
  | .underscore, c => c == '_' || isPlain c
  | .dash, c => c == '-' || isPlain c
  | .camel, c => isAlphanumeric c

/-- Joined runs have no characters but separators, lower-case letters and digits. -/
theorem admits_of_joined {filled : Bool} (h : joined sep filled r = true) (hc : c ∈ r) :
    (c == sep || isPlain c) = true := by
  induction r generalizing filled with
  | nil => exact absurd hc List.not_mem_nil
  | cons d r ih =>
    rw [joined] at h
    split at h
    · rename_i hd
      rcases List.mem_cons.mp hc with rfl | hc
      · simp [hd]
      · exact ih (Bool.and_eq_true_iff.mp h).2 hc
    · obtain ⟨hd, hrest⟩ := Bool.and_eq_true_iff.mp h
      rcases List.mem_cons.mp hc with rfl | hc
      · rw [Bool.or_eq_true]
        exact .inr hd
      · exact ih hrest hc

/-- Behind its first character, a name has characters that its style admits. -/
theorem admits_of_accepts (h : s.accepts (c :: r) = true) : ∀ d ∈ r, s.admits d = true := by
  cases s with
  | lowercase => exact List.all_eq_true.mp (Bool.and_eq_true_iff.mp h).2
  | underscore => exact fun d hd => admits_of_joined (Bool.and_eq_true_iff.mp h).2 hd
  | dash => exact fun d hd => admits_of_joined (Bool.and_eq_true_iff.mp h).2 hd
  | camel => exact List.all_eq_true.mp (Bool.and_eq_true_iff.mp h).2

/-- All styles but one begin a name with a lower-case letter. -/
theorem isLower_of_accepts (hs : s ≠ .camel) (h : s.accepts (c :: r) = true) :
    isLower c = true := by
  cases s with
  | camel => exact absurd rfl hs
  | _ => exact (Bool.and_eq_true_iff.mp h).1

/-- A separator that another style does not admit is no character of its names. -/
theorem isPlain_of_admits_or (hsep : t.admits sep = false) (hc : (c == sep || isPlain c) = true)
    (ht : t.admits c = true) : isPlain c = true := by
  rcases Bool.or_eq_true_iff.mp hc with h | h
  · rw [eq_of_beq h, hsep] at ht
    exact absurd ht (by decide)
  · exact h

/-- What two styles both admit are lower-case letters and digits. -/
theorem isPlain_of_admits (hs : s ≠ .lowercase) (ht : t ≠ .lowercase) (hne : s ≠ t)
    (hc : s.admits c = true) (hd : t.admits c = true) : isPlain c = true := by
  cases s with
  | lowercase => exact absurd rfl hs
  | underscore =>
    cases t with
    | lowercase => exact absurd rfl ht
    | underscore => exact absurd rfl hne
    | dash => exact isPlain_of_admits_or (t := dash) (by decide) hc hd
    | camel => exact isPlain_of_admits_or (t := camel) (by decide) hc hd
  | dash =>
    cases t with
    | lowercase => exact absurd rfl ht
    | underscore => exact isPlain_of_admits_or (t := underscore) (by decide) hc hd
    | dash => exact absurd rfl hne
    | camel => exact isPlain_of_admits_or (t := camel) (by decide) hc hd
  | camel =>
    cases t with
    | lowercase => exact absurd rfl ht
    | underscore => exact isPlain_of_admits_or (t := camel) (by decide) hd hc
    | dash => exact isPlain_of_admits_or (t := camel) (by decide) hd hc
    | camel => exact absurd rfl hne

/-- One run alone is read without separators. -/
theorem joined_of_all (hsep : isPlain sep = false) (h : r.all isPlain = true) :
    joined sep true r = true := by
  induction r with
  | nil => rfl
  | cons c r ih =>
    obtain ⟨hc, hrest⟩ := Bool.and_eq_true_iff.mp (List.all_cons ▸ h)
    have hne : c ≠ sep := by
      rintro rfl
      exact absurd hc (by simp [hsep])
    rw [joined, if_neg hne, ih hrest, Bool.and_true]
    exact hc

/-- A name that the strictest style admits, every style admits. -/
theorem accepts_of_lowercase (h : lowercase.accepts name = true) (style : NameStyle) :
    style.accepts name = true := by
  cases name with
  | nil => exact absurd h (by simp [accepts])
  | cons c r =>
    obtain ⟨hfirst, hrest⟩ := Bool.and_eq_true_iff.mp h
    cases style with
    | lowercase => exact h
    | underscore => rw [accepts, hfirst, joined_of_all (by decide) hrest, Bool.and_true]
    | dash => rw [accepts, hfirst, joined_of_all (by decide) hrest, Bool.and_true]
    | camel =>
      have hletter : isLetter c = true := by simp [isLetter, hfirst]
      have hall : r.all isAlphanumeric = true := by
        refine List.all_eq_true.mpr fun d hd => ?_
        rcases Bool.or_eq_true_iff.mp (List.all_eq_true.mp hrest d hd) with hlower | hdigit
        · simp [isAlphanumeric, isLetter, hlower]
        · simp [isAlphanumeric, hdigit]
      rw [accepts, hletter, Bool.true_and]
      exact hall

/-- **The strictest style is what any two others have in common.** -/
theorem lowercase_iff (hs : s ≠ .lowercase) (ht : t ≠ .lowercase) (hne : s ≠ t) (name : List Char) :
    lowercase.accepts name = true ↔ s.accepts name = true ∧ t.accepts name = true := by
  constructor
  · exact fun h => ⟨accepts_of_lowercase h s, accepts_of_lowercase h t⟩
  · rintro ⟨hs', ht'⟩
    cases name with
    | nil => exact absurd hs' (by simp [accepts])
    | cons c r =>
      -- at most one of the two begins names with upper-case letters
      have hfirst : isLower c = true := by
        by_cases hcamel : s = .camel
        · exact isLower_of_accepts (fun h => hne (hcamel.trans h.symm)) ht'
        · exact isLower_of_accepts hcamel hs'
      have hrest : r.all isPlain = true := List.all_eq_true.mpr fun d hd =>
        isPlain_of_admits hs ht hne (admits_of_accepts hs' d hd) (admits_of_accepts ht' d hd)
      rw [accepts, hfirst, Bool.true_and]
      exact hrest

end NameStyle
end MarkupLint
