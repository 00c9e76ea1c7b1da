/-
  Which configurations are in order. `Takes` says for each kind of option which values it takes,
  rule by rule and without the readers. A configuration is in order when each of its seven options
  takes the value that it is given (`ofConfig_fails_iff`); no other key counts (`ofConfig_congr`).
  The numbers that are read are within the bound.
-/
import Mathlib.Algebra.GroupWithZero.Nat
import MarkupLint.Proofs.NumericOptions
import MarkupLint.Proofs.RuleIndependence

namespace MarkupLint

/-! ## Doubles -/

/-- The value is the whole number `n`: `mantissa · 2 ^ exponent = n`, with the power on the side on
    which it is whole, and no minus before it unless it is zero. -/
def Binary64.Denotes (n : Nat) : Binary64 → Prop
  | .finite negative m e => (negative = true → m = 0) ∧ m * 2 ^ e.toNat = n * 2 ^ (-e).toNat
  | _ => False

/-- Division without a remainder undoes multiplication. -/
theorem divExact_eq_some_iff {m n d : Nat} (hd : 0 < d) :
    (if m % d = 0 then some (m / d) else none) = some n ↔ m = n * d := by
  constructor
  · intro h
    split at h
    · rename_i hmod
      obtain rfl := Option.some.inj h
      exact (Nat.div_mul_cancel (Nat.dvd_of_mod_eq_zero hmod)).symm
    · exact absurd h (by simp)
  · rintro rfl
    rw [if_pos (Nat.mul_mod_left n d), Nat.mul_div_cancel n hd]

/-- A double is read as the number that it denotes. -/
theorem Binary64.natural?_eq_some_iff {x : Binary64} {n : Nat} :
    x.natural? = some n ↔ x.Denotes n := by
  cases x with
  | nan => simp [natural?, Denotes]
  | infinite negative => simp [natural?, Denotes]
  | finite negative m e =>
    have hdown : 0 < 2 ^ (-e).toNat := Nat.two_pow_pos _
    unfold natural? Denotes
    simp only [pow2, Nat.pow_eq]
    -- zero is whole with any exponent and either sign
    by_cases hm : m = 0
    · subst hm
      rw [if_pos rfl, Option.some.injEq, Nat.zero_mul]
      constructor
      · rintro rfl
        simp
      · rintro ⟨-, hzero⟩
        have hor := Nat.mul_eq_zero.mp hzero.symm
        omega
    · rw [if_neg hm]
      cases negative with
      | true => simp [hm]
      | false =>
        simp only [Bool.false_eq_true, if_false, false_implies, true_and]
        -- the power multiplies the mantissa, or has to divide it
        by_cases he : 0 ≤ e
        · have hone : (-e).toNat = 0 := by omega
          simp [he, hone]
        · have hone : e.toNat = 0 := by omega
          simp only [if_neg he, hone, Nat.pow_zero, Nat.mul_one]
          exact divExact_eq_some_iff hdown

namespace Options

/-! ## Kinds -/

/-- The kinds of options. -/
inductive Kind where
  | names
  | style
  | flag
  | number
  deriving DecidableEq, Repr

/-- The value means the number: as a double, as an integer, or as digits in a string. -/
inductive Means (n : Nat) : ConfigValue → Prop where
  | double {x : Binary64} (h : x.Denotes n) : Means n (.number x)
  | integer : Means n (.integer n)
  | digits {s : String} (h : Numeral n s ∨ Oversigned n s) : Means n (.text s)

/-- The values that an option of a kind takes. -/
inductive Takes : Kind → ConfigValue → Prop where
  /-- `null` is the default -/
  | null (k : Kind) : Takes k .null
  | switch (b : Bool) : Takes .flag (.bool b)
  | noStyle : Takes .style (.bool false)
  | style (t : NameStyle) : Takes .style (.text t.text)
  /-- `true` is the default, and `false` is zero -/
  | numberSwitch (b : Bool) : Takes .number (.bool b)
  | number {v : ConfigValue} (n : Nat) (hmeans : Means n v) (hle : n ≤ maxNumber) : Takes .number v
  /-- `true` is the default, and `false` is none -/
  | namesSwitch (b : Bool) : Takes .names (.bool b)
  | name (s : String) : Takes .names (.text s)
  | texts (ss : List String) : Takes .names (.texts ss)
  | list (ss : List String) : Takes .names (.list (ss.map .text))

variable {v : ConfigValue} {config : Config}

/-- Flags are read from truth values. -/
theorem isSome_flag?_iff (hv : v ≠ .null) : (flag? v).isSome = true ↔ Takes .flag v := by
  constructor
  · intro h
    cases v with
    | bool b => exact .switch b
    | _ => exact absurd h (by simp [flag?])
  · intro h
    cases h with
    | null => exact absurd rfl hv
    | switch b => rfl

/-- A style is found by its name. -/
theorem ofText?_eq_some_iff {s : String} {t : NameStyle} :
    NameStyle.ofText? s = some t ↔ s = t.text := by
  constructor
  · intro h
    have hfound := List.find?_some h
    exact (beq_iff_eq.mp hfound).symm
  · rintro rfl
    cases t <;> decide

/-- Styles are read from their names, and from `false` for none. -/
theorem isSome_style?_iff (hv : v ≠ .null) : (style? v).isSome = true ↔ Takes .style v := by
  constructor
  · intro h
    cases v with
    | bool b =>
      cases b with
      | false => exact .noStyle
      | true => exact absurd h (by simp [style?])
    | text s =>
      obtain ⟨t, ht⟩ := Option.isSome_iff_exists.mp h
      obtain ⟨t, hfound, rfl⟩ := Option.map_eq_some_iff.mp ht
      rw [ofText?_eq_some_iff.mp hfound]
      exact .style t
    | _ => exact absurd h (by simp [style?])
  · intro h
    cases h with
    | null => exact absurd rfl hv
    | noStyle => rfl
    | style t => simp [style?, ofText?_eq_some_iff.mpr rfl]

/-- Values other than switches are read as the number that they mean, if it is within the bound. -/
theorem number?_eq_some_iff {default n : Nat} (hv : ∀ b, v ≠ .bool b) :
    number? default v = some n ↔ Means n v ∧ n ≤ maxNumber := by
  cases v with
  | bool b => exact absurd rfl (hv b)
  | number x =>
    simp only [number?, Option.bind_eq_some_iff, inRange?_eq_some_iff,
      Binary64.natural?_eq_some_iff]
    constructor
    · rintro ⟨m, hm, hle, hsame⟩
      obtain rfl := Int.ofNat.inj hsame
      exact ⟨.double hm, hle⟩
    · rintro ⟨hmeans, hle⟩
      cases hmeans with
      | double hm => exact ⟨n, hm, hle, rfl⟩
  | integer z =>
    simp only [number?, inRange?_eq_some_iff]
    constructor
    · rintro ⟨hle, rfl⟩
      exact ⟨.integer, hle⟩
    · rintro ⟨hmeans, hle⟩
      cases hmeans with
      | integer => exact ⟨hle, rfl⟩
  | text s =>
    simp only [number?, numberOfText?_eq_some_iff]
    constructor
    · rintro ⟨hle, hdigits⟩
      exact ⟨.digits hdigits, hle⟩
    · rintro ⟨hmeans, hle⟩
      cases hmeans with
      | digits hdigits => exact ⟨hle, hdigits⟩
  | _ =>
    refine ⟨fun h => absurd h (by simp [number?]), fun h => ?_⟩
    cases h.1

/-- Numbers are read from switches and from what means a number. -/
theorem isSome_number?_iff {default : Nat} (hv : v ≠ .null) :
    (number? default v).isSome = true ↔ Takes .number v := by
  by_cases hb : ∃ b, v = .bool b
  · obtain ⟨b, rfl⟩ := hb
    exact ⟨fun _ => .numberSwitch b, fun _ => rfl⟩
  · have hread : ∀ n, number? default v = some n ↔ Means n v ∧ n ≤ maxNumber :=
      fun n => number?_eq_some_iff fun b h => hb ⟨b, h⟩
    rw [Option.isSome_iff_exists]
    constructor
    · rintro ⟨n, hn⟩
      obtain ⟨hmeans, hle⟩ := (hread n).mp hn
      exact .number n hmeans hle
    · intro h
      cases h with
      | null => exact absurd rfl hv
      | numberSwitch b => exact absurd ⟨b, rfl⟩ hb
      | number n hmeans hle => exact ⟨n, (hread n).mpr ⟨hmeans, hle⟩⟩

/-- A list is read as one of names if it holds nothing else. -/
theorem textsOf?_eq_some_iff {vs : List ConfigValue} {ss : List String} :
    textsOf? vs = some ss ↔ vs = ss.map .text := by
  induction vs generalizing ss with
  | nil => simp [textsOf?, eq_comm]
  | cons v vs ih =>
    cases v with
    | text s =>
      rw [textsOf?, Option.map_eq_some_iff]
      constructor
      · rintro ⟨rest, hrest, rfl⟩
        rw [ih.mp hrest]
        rfl
      · intro h
        cases ss with
        | nil => exact absurd h (by simp)
        | cons x rest =>
          obtain ⟨hx, hrest⟩ := List.cons.inj h
          obtain rfl := ConfigValue.text.inj hx
          exact ⟨rest, ih.mpr hrest, rfl⟩
    | _ =>
      refine ⟨fun h => absurd h (by simp [textsOf?]), fun h => ?_⟩
      cases ss with
      | nil => exact absurd h (by simp)
      | cons x rest => exact absurd (List.cons.inj h).1 (by simp)

/-- Names are read from switches, single names and lists of names. -/
theorem isSome_names?_iff {default : List String} (hv : v ≠ .null) :
    (names? default v).isSome = true ↔ Takes .names v := by
  constructor
  · intro h
    cases v with
    | bool b => exact .namesSwitch b
    | text s => exact .name s
    | texts ss => exact .texts ss
    | list vs =>
      obtain ⟨x, hx⟩ := Option.isSome_iff_exists.mp h
      obtain ⟨ss, hread, -⟩ := Option.map_eq_some_iff.mp hx
      rw [textsOf?_eq_some_iff.mp hread]
      exact .list ss
    | _ => exact absurd h (by simp [names?])
  · intro h
    cases h with
    | null => exact absurd rfl hv
    | list ss => simp [names?, textsOf?_eq_some_iff.mpr rfl]
    | _ => rfl

end Options

/-! ## Configurations -/

/-- The kind of the option of a rule. -/
def RuleName.kind : RuleName → Options.Kind
  | .attrBans => .names
  | .attrNameStyle | .idClassStyle => .style
  | .attrNoDup | .idNoDup => .flag
  | .indentWidth | .attrNewLine => .number

namespace Options

variable {config other : Config} {o : Options}

/-- The configuration gives the option of the rule a value that its kind does not take. -/
def Rejects (config : Config) (r : RuleName) (v : ConfigValue) : Prop :=
  config.get? r.key = some v ∧ ¬ Takes r.kind v

/-- The value of an option that is in order is not rejected. -/
theorem not_rejects_of_option_ok {α : Type} {r : RuleName} {default a : α}
    {kind : ConfigValue → Option α} {v : ConfigValue}
    (hkind : ∀ {v : ConfigValue}, v ≠ .null → ((kind v).isSome = true ↔ Takes r.kind v))
    (h : option config r.key default kind = .ok a) : ¬ Rejects config r v := by
  rintro ⟨hvalue, hno⟩
  have hv : v ≠ .null := by
    rintro rfl
    exact hno (.null _)
  rw [option_eq_ok_iff_of_value hvalue hv] at h
  exact hno ((hkind hv).mp (Option.isSome_of_eq_some h))

/-- An option that fails rejects the value that the error tells. -/
theorem rejects_of_option_error {α : Type} {r : RuleName} {default : α}
    {kind : ConfigValue → Option α} {e : InvalidOption}
    (hkind : ∀ {v : ConfigValue}, v ≠ .null → ((kind v).isSome = true ↔ Takes r.kind v))
    (h : option config r.key default kind = .error e) :
    e.key = r.key ∧ Rejects config r e.value := by
  obtain ⟨v, hvalue, hv, hfail, rfl⟩ := option_eq_error_iff.mp h
  refine ⟨rfl, hvalue, fun htakes => ?_⟩
  have hsome := (hkind hv).mpr htakes
  rw [hfail] at hsome
  exact absurd hsome (by simp)

/-- The error of a configuration names the option of a rule, and tells the value that it rejects. -/
theorem rejects_of_error {e : InvalidOption} (h : ofConfig config = .error e) :
    ∃ r : RuleName, e.key = r.key ∧ Rejects config r e.value := by
  have bind_error : ∀ {α β : Type} {x : Except InvalidOption α} {f : α → Except InvalidOption β},
      (x >>= f) = .error e → x = .error e ∨ ∃ a, f a = .error e := by
    intro α β x f hx
    cases x with
    | error e' => exact .inl (by rw [Except.error.inj hx])
    | ok a => exact .inr ⟨a, hx⟩
  -- the options are read one after the other, and one of them fails
  rcases bind_error h with hbans | ⟨_, h⟩
  · exact ⟨.attrBans, rejects_of_option_error isSome_names?_iff hbans⟩
  rcases bind_error h with hnames | ⟨_, h⟩
  · exact ⟨.attrNameStyle, rejects_of_option_error isSome_style?_iff hnames⟩
  rcases bind_error h with hdup | ⟨_, h⟩
  · exact ⟨.attrNoDup, rejects_of_option_error isSome_flag?_iff hdup⟩
  rcases bind_error h with hvalues | ⟨_, h⟩
  · exact ⟨.idClassStyle, rejects_of_option_error isSome_style?_iff hvalues⟩
  rcases bind_error h with hids | ⟨_, h⟩
  · exact ⟨.idNoDup, rejects_of_option_error isSome_flag?_iff hids⟩
  rcases bind_error h with hindent | ⟨_, h⟩
  · exact ⟨.indentWidth, rejects_of_option_error isSome_number?_iff hindent⟩
  rcases bind_error h with hlines | ⟨_, h⟩
  · exact ⟨.attrNewLine, rejects_of_option_error isSome_number?_iff hlines⟩
  exact absurd (show Except.ok _ = Except.error e from h) (by simp)

/-- In a configuration that is in order, no value is rejected. -/
theorem not_rejects_of_ok (h : ofConfig config = .ok o) (r : RuleName) (v : ConfigValue) :
    ¬ Rejects config r v := by
  obtain ⟨hbans, hnames, hdup, hvalues, hids, hindent, hlines⟩ := ofConfig_eq_ok.mp h
  cases r with
  | attrBans => exact not_rejects_of_option_ok isSome_names?_iff hbans
  | attrNameStyle => exact not_rejects_of_option_ok isSome_style?_iff hnames
  | attrNoDup => exact not_rejects_of_option_ok isSome_flag?_iff hdup
  | idClassStyle => exact not_rejects_of_option_ok isSome_style?_iff hvalues
  | idNoDup => exact not_rejects_of_option_ok isSome_flag?_iff hids
  | indentWidth => exact not_rejects_of_option_ok isSome_number?_iff hindent
  | attrNewLine => exact not_rejects_of_option_ok isSome_number?_iff hlines

/-- Reading a configuration fails just when a value is rejected. -/
theorem ofConfig_fails_iff : (∃ e, ofConfig config = .error e) ↔ ∃ r v, Rejects config r v := by
  constructor
  · rintro ⟨e, he⟩
    obtain ⟨r, -, hrejects⟩ := rejects_of_error he
    exact ⟨r, e.value, hrejects⟩
  · rintro ⟨r, v, hrejects⟩
    cases hread : ofConfig config with
    | error e => exact ⟨e, rfl⟩
    | ok o => exact absurd hrejects (not_rejects_of_ok hread r v)

/-- No key counts but those of the rules. -/
theorem ofConfig_congr (h : ∀ r : RuleName, other.get? r.key = config.get? r.key) :
    ofConfig other = ofConfig config := by
  have hoption : ∀ {α : Type} (r : RuleName) (default : α) (kind : ConfigValue → Option α),
      option other r.key default kind = option config r.key default kind := by
    intro α r default kind
    unfold option
    rw [h r]
  -- one for each rule
  have hbans := hoption .attrBans (some defaultBans) (names? defaultBans)
  have hnames := hoption .attrNameStyle (some .dash) style?
  have hdup := hoption .attrNoDup true flag?
  have hvalues := hoption .idClassStyle none style?
  have hids := hoption .idNoDup true flag?
  have hindent := hoption .indentWidth 4 (number? 4)
  have hlines := hoption .attrNewLine 0 (number? 0)
  simp only [RuleName.key] at hbans hnames hdup hvalues hids hindent hlines
  simp only [ofConfig, hbans, hnames, hdup, hvalues, hids, hindent, hlines]

/-- The numbers that are read are within the bound. -/
theorem number?_le {default n : Nat} (hdefault : default ≤ maxNumber) {v : ConfigValue}
    (h : number? default v = some n) : n ≤ maxNumber := by
  by_cases hb : ∃ b, v = .bool b
  · obtain ⟨b, rfl⟩ := hb
    obtain rfl := Option.some.inj h
    split
    · exact hdefault
    · exact Nat.zero_le _
  · exact ((number?_eq_some_iff fun b h => hb ⟨b, h⟩).mp h).2

/-- A numeric option is within the bounds if its default is. -/
theorem option_number_le {key : String} {default n : Nat} (hdefault : default ≤ maxNumber)
    (h : option config key default (number? default) = .ok n) : n ≤ maxNumber := by
  rcases option_eq_ok_iff.mp h with ⟨-, rfl⟩ | ⟨v, -, -, hread⟩
  · exact hdefault
  · exact number?_le hdefault hread

end Options
end MarkupLint
