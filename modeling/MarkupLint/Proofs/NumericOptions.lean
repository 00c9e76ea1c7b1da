/-
  Numbers that a configuration gives as strings.

  A string means a number when it is decimal digits, with one `+` in front or none (`Numeral`). The
  reader drops a `+` and hands what is left to a reader of signed decimals, which takes a sign of
  its own. So it also takes strings with a sign too many (`Oversigned`): two `+`, and a `-`, alone
  or behind a `+`, as long as what follows is zero.
-/
import MarkupLint.Proofs.Digits
import MarkupLint.Rule.Options

namespace MarkupLint.Options

variable {s : String} {ds cs : List Char} {n : Nat}

/-! ## Digits -/

/-- Decimal digits, at least one, that denote the number. -/
structure DigitsOf (n : Nat) (ds : List Char) : Prop where
  ne_nil : ds ≠ []
  digits : ∀ c ∈ ds, c.isDigit = true
  value : Nat.ofDigitChars 10 ds 0 = n

/-- Runs of digits are read as the numbers that they denote. -/
theorem digitsValue?_eq_some_iff : digitsValue? ds = some n ↔ DigitsOf n ds := by
  unfold digitsValue?
  split
  · -- no digits at all, or something else among them
    rename_i hbad
    refine ⟨fun h => absurd h (by simp), fun h => ?_⟩
    have hall : ds.all NameStyle.isDigit = true :=
      List.all_eq_true.mpr fun c hc => NameStyle.isDigit_iff.mpr (h.digits c hc)
    rw [hall, Bool.not_true, Bool.or_false, List.isEmpty_iff] at hbad
    exact absurd hbad h.ne_nil
  · rename_i hgood
    simp only [Bool.or_eq_true, Bool.not_eq_true', not_or, Bool.not_eq_true,
      Bool.not_eq_false] at hgood
    obtain ⟨hne, hall⟩ := hgood
    rw [JsonNumber.digitsValue_eq, Option.some.injEq]
    constructor
    · intro hvalue
      exact ⟨by simpa using hne,
        fun c hc => NameStyle.isDigit_iff.mp (List.all_eq_true.mp hall c hc), hvalue⟩
    · exact fun h => h.value

/-- Digits do not begin with a sign. -/
theorem DigitsOf.not_sign (h : DigitsOf n ds) {c : Char} (hc : c.isDigit = false) (r : List Char) :
    ds ≠ c :: r := by
  rintro rfl
  have hdigit := h.digits c List.mem_cons_self
  rw [hc] at hdigit
  exact absurd hdigit (by decide)

/-! ## Signs -/

/-- The number that digits denote, with a sign given to it by `f`, as far as it is one of 64
    bits. -/
theorem signed64_eq_some_iff (f : Nat → Int) {z : Int} :
    ((digitsValue? ds).map f).bind (fun z => if fits64 z then some z else none) = some z ↔
      fits64 z = true ∧ ∃ m, DigitsOf m ds ∧ f m = z := by
  simp only [Option.bind_eq_some_iff, Option.map_eq_some_iff, digitsValue?_eq_some_iff]
  constructor
  · rintro ⟨y, hread, hy⟩
    split at hy
    · rename_i hfits
      obtain rfl := Option.some.inj hy
      exact ⟨hfits, hread⟩
    · exact absurd hy (by simp)
  · rintro ⟨hfits, hread⟩
    exact ⟨z, hread, if_pos hfits⟩

/-- Behind a `-` stand the digits of the opposite number. -/
theorem decimal?_minus (ds : List Char) : decimal? ('-' :: ds) =
    ((digitsValue? ds).map fun m : Nat => -(m : Int)).bind
      (fun z => if fits64 z then some z else none) := by
  cases h : digitsValue? ds <;> simp [decimal?, h]

theorem decimal?_plus (ds : List Char) : decimal? ('+' :: ds) =
    ((digitsValue? ds).map Int.ofNat).bind (fun z => if fits64 z then some z else none) := by
  cases h : digitsValue? ds <;> simp [decimal?, h]

/-- Without a sign the text is digits. -/
theorem decimal?_unsigned (hminus : ∀ r, cs ≠ '-' :: r) (hplus : ∀ r, cs ≠ '+' :: r) : decimal? cs =
    ((digitsValue? cs).map Int.ofNat).bind (fun z => if fits64 z then some z else none) := by
  unfold decimal?
  split
  · exact absurd rfl (hminus _)
  · exact absurd rfl (hplus _)
  · cases digitsValue? cs <;> rfl

/-- Numbers are taken from zero up to the bound. -/
theorem inRange?_eq_some_iff {z : Int} : inRange? z = some n ↔ n ≤ maxNumber ∧ z = n := by
  unfold inRange?
  split
  · rw [Option.some.injEq]
    omega
  · refine ⟨fun h => absurd h (by simp), fun h => ?_⟩
    omega

/-- Numbers up to the bound are far from the ends of the 64-bit numbers. -/
theorem fits64_of_le (h : n ≤ maxNumber) : fits64 n = true := by
  rw [fits64_iff]
  unfold maxNumber at h
  unfold min64 max64
  omega

/-- Digits with a sign of their own or none; behind a `-` they denote zero. -/
def Signed (n : Nat) (cs : List Char) : Prop :=
  ∃ ds, DigitsOf n ds ∧ (cs = ds ∨ cs = '+' :: ds ∨ n = 0 ∧ cs = '-' :: ds)

/-- Signed decimals are read as numbers up to the bound, those behind a `-` only as zero. -/
theorem decimal?_inRange_iff :
    (decimal? cs).bind inRange? = some n ↔ n ≤ maxNumber ∧ Signed n cs := by
  have hminus : Char.isDigit '-' = false := by decide
  have hplus : Char.isDigit '+' = false := by decide
  -- the bound is the tighter one, so that of 64 bits can be left out
  have hbound : (decimal? cs).bind inRange? = some n ↔
      n ≤ maxNumber ∧ decimal? cs = some (n : Int) := by
    simp only [Option.bind_eq_some_iff, inRange?_eq_some_iff]
    constructor
    · rintro ⟨z, hz, hle, rfl⟩
      exact ⟨hle, hz⟩
    · rintro ⟨hle, hz⟩
      exact ⟨n, hz, hle, rfl⟩
  rw [hbound]
  refine and_congr_right fun hle => ?_
  have hfits := fits64_of_le hle
  -- by the sign in front; digits have none
  by_cases hm : ∃ r, cs = '-' :: r
  · obtain ⟨r, rfl⟩ := hm
    rw [decimal?_minus, signed64_eq_some_iff]
    constructor
    · rintro ⟨-, m, hdigits, hneg⟩
      obtain ⟨rfl, rfl⟩ : m = 0 ∧ n = 0 := by omega
      exact ⟨r, hdigits, .inr (.inr ⟨rfl, rfl⟩)⟩
    · rintro ⟨ds, hdigits, rfl | hcons | ⟨rfl, hcons⟩⟩
      · exact absurd rfl (hdigits.not_sign hminus r)
      · exact absurd (List.cons.inj hcons).1 (by decide)
      · obtain rfl := (List.cons.inj hcons).2
        exact ⟨hfits, 0, hdigits, rfl⟩
  · by_cases hp : ∃ r, cs = '+' :: r
    · obtain ⟨r, rfl⟩ := hp
      rw [decimal?_plus, signed64_eq_some_iff]
      constructor
      · rintro ⟨-, m, hdigits, hsame⟩
        obtain rfl := Int.ofNat.inj hsame
        exact ⟨r, hdigits, .inr (.inl rfl)⟩
      · rintro ⟨ds, hdigits, rfl | hcons | ⟨-, hcons⟩⟩
        · exact absurd rfl (hdigits.not_sign hplus r)
        · obtain rfl := (List.cons.inj hcons).2
          exact ⟨hfits, n, hdigits, rfl⟩
        · exact absurd (List.cons.inj hcons).1 (by decide)
    · rw [decimal?_unsigned (fun r hr => hm ⟨r, hr⟩) (fun r hr => hp ⟨r, hr⟩), signed64_eq_some_iff]
      constructor
      · rintro ⟨-, m, hdigits, hsame⟩
        obtain rfl := Int.ofNat.inj hsame
        exact ⟨cs, hdigits, .inl rfl⟩
      · rintro ⟨ds, hdigits, rfl | hcons | ⟨-, hcons⟩⟩
        · exact ⟨hfits, n, hdigits, rfl⟩
        · exact absurd ⟨ds, hcons⟩ hp
        · exact absurd ⟨ds, hcons⟩ hm

/-! ## Numerals -/

/-- A numeral: digits, with one `+` in front or none. -/
def Numeral (n : Nat) (s : String) : Prop :=
  ∃ ds, DigitsOf n ds ∧ (s.toList = ds ∨ s.toList = '+' :: ds)

/-- Digits with a sign too many: a second `+`, or a `-` before a zero. -/
def Oversigned (n : Nat) (s : String) : Prop :=
  ∃ ds, DigitsOf n ds ∧
    (s.toList = '+' :: '+' :: ds ∨ n = 0 ∧ (s.toList = '-' :: ds ∨ s.toList = '+' :: '-' :: ds))

/-- No string is both. -/
theorem Oversigned.not_numeral {m : Nat} (h : Oversigned n s) : ¬ Numeral m s := by
  have hminus : Char.isDigit '-' = false := by decide
  have hplus : Char.isDigit '+' = false := by decide
  rintro ⟨es, hes, hnumeral⟩
  obtain ⟨ds, -, hsigns⟩ := h
  -- what stands in place of the first digit is a sign
  rcases hsigns with htwo | ⟨-, hone | htwo⟩
  · rcases hnumeral with hbare | hsign
    · exact hes.not_sign hplus _ (hbare.symm.trans htwo)
    · exact hes.not_sign hplus _ (List.cons.inj (hsign.symm.trans htwo)).2
  · rcases hnumeral with hbare | hsign
    · exact hes.not_sign hminus _ (hbare.symm.trans hone)
    · exact absurd (List.cons.inj (hsign.symm.trans hone)).1 (by decide)
  · rcases hnumeral with hbare | hsign
    · exact hes.not_sign hplus _ (hbare.symm.trans htwo)
    · exact hes.not_sign hminus _ (List.cons.inj (hsign.symm.trans htwo)).2

/-- Behind a `+` that is dropped, a sign of its own is one too many. -/
theorem signed_behind_plus (hs : s.toList = '+' :: cs) :
    Signed n cs ↔ Numeral n s ∨ Oversigned n s := by
  have hplus : Char.isDigit '+' = false := by decide
  unfold Signed Numeral Oversigned
  rw [hs]
  constructor
  · rintro ⟨ds, hdigits, rfl | rfl | ⟨hzero, rfl⟩⟩
    · exact .inl ⟨cs, hdigits, .inr rfl⟩
    · exact .inr ⟨ds, hdigits, .inl rfl⟩
    · exact .inr ⟨ds, hdigits, .inr ⟨hzero, .inr rfl⟩⟩
  · rintro (⟨ds, hdigits, hbare | hsign⟩ | ⟨ds, hdigits, hsigns | ⟨hzero, hsign | hsigns⟩⟩)
    · exact absurd hbare.symm (hdigits.not_sign hplus cs)
    · exact ⟨ds, hdigits, .inl (List.cons.inj hsign).2⟩
    · exact ⟨ds, hdigits, .inr (.inl (List.cons.inj hsigns).2)⟩
    · exact absurd (List.cons.inj hsign).1 (by decide)
    · exact ⟨ds, hdigits, .inr (.inr ⟨hzero, (List.cons.inj hsigns).2⟩)⟩

/-- Where no `+` is dropped, the only sign too many is a `-`. -/
theorem signed_without_plus (hs : ∀ r, s.toList ≠ '+' :: r) :
    Signed n s.toList ↔ Numeral n s ∨ Oversigned n s := by
  constructor
  · rintro ⟨ds, hdigits, hbare | hsign | ⟨hzero, hsign⟩⟩
    · exact .inl ⟨ds, hdigits, .inl hbare⟩
    · exact absurd hsign (hs ds)
    · exact .inr ⟨ds, hdigits, .inr ⟨hzero, .inl hsign⟩⟩
  · rintro (⟨ds, hdigits, hbare | hsign⟩ | ⟨ds, hdigits, hsigns | ⟨hzero, hsign | hsigns⟩⟩)
    · exact ⟨ds, hdigits, .inl hbare⟩
    · exact absurd hsign (hs ds)
    · exact absurd hsigns (hs _)
    · exact ⟨ds, hdigits, .inr (.inr ⟨hzero, hsign⟩)⟩
    · exact absurd hsigns (hs _)

/-- Which strings are read as numbers, and as which. -/
theorem numberOfText?_eq_some_iff :
    numberOfText? s = some n ↔ n ≤ maxNumber ∧ (Numeral n s ∨ Oversigned n s) := by
  unfold numberOfText?
  simp only
  rw [decimal?_inRange_iff]
  refine and_congr_right fun _ => ?_
  -- a `+` in front is dropped before the rest is read
  split
  · rename_i cs hs
    exact signed_behind_plus hs
  · rename_i hs
    exact signed_without_plus hs

/-! ## Reading an option -/

section Option

variable {α : Type} {config : Config} {key : String} {default a : α}
  {kind : ConfigValue → Option α} {v : ConfigValue}

/-- An option is the default without a value or with `null`, and else what its kind makes of the
    value. -/
theorem option_eq_ok_iff : option config key default kind = .ok a ↔
    (config.get? key = none ∨ config.get? key = some .null) ∧ default = a ∨
    ∃ v, config.get? key = some v ∧ v ≠ .null ∧ kind v = some a := by
  unfold option
  split
  · rename_i hnone
    simp [hnone]
  · rename_i hnull
    simp [hnull]
  · rename_i v hne hv
    have hnull : v ≠ .null := hne
    cases hkind : kind v <;> simp [hv, hnull, hkind]

/-- Given a value, only the kind counts. -/
theorem option_eq_ok_iff_of_value (h : config.get? key = some v) (hv : v ≠ .null) :
    option config key default kind = .ok a ↔ kind v = some a := by
  rw [option_eq_ok_iff, h]
  simp [hv]

/-- An option fails at a value that its kind rejects, and the error names the option and the
    value. -/
theorem option_eq_error_iff {e : InvalidOption} : option config key default kind = .error e ↔
    ∃ v, config.get? key = some v ∧ v ≠ .null ∧ kind v = none ∧ e = ⟨key, v⟩ := by
  unfold option
  split
  · rename_i hnone
    simp [hnone]
  · rename_i hnull
    simp [hnull]
  · rename_i v hne hv
    cases hkind : kind v <;> simp [hv, show v ≠ .null from hne, hkind, eq_comm]

end Option

/-- **Numbers given as strings.** Let the value of a numeric option be a string, of any length. The
    option is read as `n` just when `n` is within the bound and the string is a numeral of `n`, or
    digits of `n` with a sign too many. Any other string is an invalid value. So the option is read
    from numerals only, as long as the string is not digits of a number within the bound with a sign
    too many. -/
theorem numericText_read_iff (config : Config) (key : String) (default : Nat) (s : String)
    (h : config.get? key = some (.text s)) :
    (∀ n, option config key default (number? default) = .ok n ↔
      n ≤ maxNumber ∧ (Numeral n s ∨ Oversigned n s)) ∧
    ((∀ n ≤ maxNumber, ¬ Numeral n s ∧ ¬ Oversigned n s) →
      option config key default (number? default) = .error ⟨key, .text s⟩) ∧
    ((∀ n, option config key default (number? default) = .ok n ↔ n ≤ maxNumber ∧ Numeral n s) ↔
      ∀ n ≤ maxNumber, ¬ Oversigned n s) := by
  have hvalue : (.text s : ConfigValue) ≠ .null := by simp
  have hread : ∀ n, option config key default (number? default) = .ok n ↔
      n ≤ maxNumber ∧ (Numeral n s ∨ Oversigned n s) := by
    intro n
    rw [option_eq_ok_iff_of_value h hvalue]
    exact numberOfText?_eq_some_iff
  refine ⟨hread, fun hnone => ?_, ?_⟩
  · rw [option_eq_error_iff]
    refine ⟨.text s, h, hvalue, ?_, rfl⟩
    refine Option.eq_none_iff_forall_ne_some.mpr fun n hn => ?_
    obtain ⟨hle, hsome⟩ := numberOfText?_eq_some_iff.mp hn
    exact hsome.elim (hnone n hle).1 (hnone n hle).2
  · constructor
    · intro hclean n hle hover
      exact hover.not_numeral ((hclean n).mp ((hread n).mpr ⟨hle, .inr hover⟩)).2
    · intro hclean n
      rw [hread n]
      refine and_congr_right fun hle => ?_
      exact ⟨fun hor => hor.resolve_right (hclean n hle), .inl⟩

/-- A numeral may have a `+` and any number of leading zeros. -/
theorem numericText_read_iff_zeros :
    option [("indent-width", .text "+00000000000000000000002")] "indent-width" 4 (number? 4) =
      .ok 2 := by
  obtain ⟨hread, -, -⟩ :=
    numericText_read_iff [("indent-width", .text "+00000000000000000000002")] "indent-width" 4
      "+00000000000000000000002" rfl
  have hdigits : DigitsOf 2 "00000000000000000000002".toList :=
    ⟨by decide +kernel, List.all_eq_true.mp (by decide +kernel), by decide +kernel⟩
  exact (hread 2).mpr ⟨by decide, .inl ⟨_, hdigits, .inr (by decide +kernel)⟩⟩

/-- A second `+` is read over. -/
theorem doubled_sign_read :
    option [("indent-width", .text "++5")] "indent-width" 4 (number? 4) = .ok 5 ∧
      ∀ n, ¬ Numeral n "++5" := by
  have hdigits : DigitsOf 5 ['5'] := ⟨by decide, List.all_eq_true.mp (by decide), by decide⟩
  have hover : Oversigned 5 "++5" := ⟨['5'], hdigits, .inl (by decide)⟩
  refine ⟨?_, fun n => hover.not_numeral⟩
  rw [option_eq_ok_iff_of_value (v := .text "++5") rfl (by simp)]
  exact numberOfText?_eq_some_iff.mpr ⟨by decide, .inr hover⟩

end MarkupLint.Options
