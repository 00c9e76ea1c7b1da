/-
  JSON texts that are written can be read.

  A text is read token by token, and the machine behind the tokens holds the open containers.
  `readFrom` puts the two together: what the rest of a text makes of a state of the machine. A value
  that is written in front of a rest takes the machine from the state in which a value may come to
  the state in which that value is complete, and leaves the rest (`Writable.readsBack`). The
  induction is over the value; the elements of a list and the members of an object are gone through
  one by one, with those that are done on the stack.
-/
import MarkupLint.Json.Codec
import MarkupLint.Proofs.Digits
import MarkupLint.Proofs.Utf8Reading

namespace MarkupLint.Json

variable {st st' : State} {c : Char} {r s : List Char} {t : Token} {n : Nat} {stack : List Frame}

/-! ## Reading a rest -/

/-- The value of a machine that has come to the end. -/
def State.result? : State → Option Json
  | .finished v => some v
  | _ => none

/-- What a text makes of a state. -/
def readFrom (st : State) (s : List Char) : Option Json :=
  (lexFrom 0 s).bind fun ts => (ts.foldlM State.step st).bind State.result?

/-- Tokens are read by running the machine, and looking whether it is done. -/
theorem ofTokens?_eq (ts : List Token) :
    ofTokens? ts = (ts.foldlM State.step (.value [])).bind State.result? := by
  unfold ofTokens?
  split
  · rename_i v hrun
    rw [hrun]
    rfl
  · rename_i hrun
    cases hstate : ts.foldlM State.step (State.value []) with
    | none => rfl
    | some st =>
      cases st with
      | finished v => exact absurd hstate (hrun v)
      | _ => rfl

/-- A text is read from the state in which a value may come. -/
theorem ofChars?_eq (s : List Char) : ofChars? s = readFrom (.value []) s := by
  unfold ofChars? readFrom lex
  congr 1
  funext ts
  exact ofTokens?_eq ts

/-- Characters of a token that has been read are passed over. -/
theorem lexFrom_eq_drop (n : Nat) (s : List Char) : lexFrom n s = lexFrom 0 (s.drop n) := by
  induction n generalizing s with
  | zero => rfl
  | succ n ih =>
    cases s with
    | nil => rfl
    | cons c r => exact ih r

theorem readFrom_gap (h : isGap c = true) (st : State) (r : List Char) :
    readFrom st (c :: r) = readFrom st r := by
  unfold readFrom
  rw [lexFrom, if_pos h]

/-- White space between tokens changes nothing. -/
theorem readFrom_gaps {gaps : List Char} (h : ∀ c ∈ gaps, isGap c = true) (st : State)
    (r : List Char) : readFrom st (gaps ++ r) = readFrom st r := by
  induction gaps with
  | nil => rfl
  | cons c gaps ih =>
    rw [List.cons_append, readFrom_gap (h c List.mem_cons_self)]
    exact ih fun x hx => h x (List.mem_cons_of_mem c hx)

theorem readFrom_token (hgap : isGap c = false) (htoken : token? c r = some (t, n))
    (hstep : st.step t = some st') :
    readFrom st (c :: r) = readFrom st' (r.drop n) := by
  have hlex : lexFrom 0 (c :: r) = (lexFrom 0 (r.drop n)).map (t :: ·) := by
    rw [lexFrom, if_neg (by rw [hgap]; decide), htoken, ← lexFrom_eq_drop]
  unfold readFrom
  rw [hlex]
  cases lexFrom 0 (r.drop n) with
  | none => rfl
  | some ts =>
    show ((State.step st t).bind fun st => ts.foldlM State.step st).bind State.result? = _
    rw [hstep]
    rfl

/-! ## Strings -/

theorem hexValue?_digitChar : ∀ d < 16, hexValue? (Nat.digitChar d) = some d := by decide

/-- A digit of an escape is read as the last hexadecimal digit of its number. -/
theorem hexValue?_hexDigit (n : Nat) : hexValue? (hexDigit n) = some (n % 16) :=
  hexValue?_digitChar (n % 16) (Nat.mod_lt n (by decide))

/-- Four of them give a number below `65536` back. -/
theorem hex4?_unicodeEscape {n : Nat} (h : n < 65536) :
    hex4? (hexDigit (n / 4096)) (hexDigit (n / 256)) (hexDigit (n / 16)) (hexDigit n) = some n := by
  unfold hex4?
  rw [hexValue?_hexDigit, hexValue?_hexDigit, hexValue?_hexDigit, hexValue?_hexDigit]
  show some _ = some n
  congr 1
  omega

/-- A character that is written as it is. -/
theorem string?_plain (hquote : c ≠ '"') (hslash : c ≠ '\\') (hcontrol : ¬ c.val < 32)
    (r : List Char) :
    string? none (c :: r) = (string? none r).map fun p => (c :: p.1, p.2 + 1) := by
  rw [string?.eq_def]
  -- the cases of the reader: the end of the text, the quote, two kinds of escapes, and all the rest
  split
  · rename_i h
    exact absurd h (by simp)
  · rename_i h
    exact absurd (List.cons.inj h).1 hquote
  · rename_i h
    exact absurd (List.cons.inj h).1 hslash
  · rename_i h
    exact absurd (List.cons.inj h).1 hslash
  · rename_i h
    obtain ⟨rfl, rfl⟩ := List.cons.inj h
    rw [if_neg (by simp [hslash, hcontrol])]
    rfl

/-- A character that is written by its number. -/
theorem string?_unicodeEscape (h : c.val.toNat < 0xD800) (r : List Char) :
    string? none (unicodeEscape c.val.toNat ++ r) =
      (string? none r).map fun p => (c :: p.1, p.2 + 6) := by
  have hhigh : isHigh c.val.toNat = false := by
    unfold isHigh
    rw [Bool.and_eq_false_iff, decide_eq_false_iff_not]
    exact .inl (by omega)
  have hlow : isLow c.val.toNat = false := by
    unfold isLow
    rw [Bool.and_eq_false_iff, decide_eq_false_iff_not]
    exact .inl (by omega)
  have hchar : Char.ofNat c.val.toNat = c := Char.ofNat_toNat c
  show string? none ('\\' :: 'u' :: _ :: _ :: _ :: _ :: r) = _
  rw [string?, hex4?_unicodeEscape (by omega)]
  simp only [hhigh, hlow, hchar]
  rfl

/-- What is written for a character is read as that character. -/
theorem string?_escapeChar (c : Char) (r : List Char) :
    string? none (escapeChar c ++ r) =
      (string? none r).map fun p => (c :: p.1, p.2 + (escapeChar c).length) := by
  unfold escapeChar
  -- the short escapes, each read by its own case
  iterate 7
    split
    · subst c
      rfl
  split
  · rename_i h
    refine string?_unicodeEscape ?_ r
    simp only [Bool.or_eq_true, decide_eq_true_eq] at h
    obtain ((((h | rfl) | rfl) | rfl) | rfl) | rfl := h
    · exact Nat.lt_trans (UInt32.lt_iff_toNat_lt.1 h) (by decide)
    all_goals decide
  · rename_i hquote hslash _ _ _ _ _ h
    refine string?_plain hquote hslash ?_ r
    intro hcontrol
    exact h (by simp [hcontrol])

/-- A string is read up to its closing quote, which no escape holds. -/
theorem string?_render (cs r : List Char) :
    string? none (cs.flatMap escapeChar ++ '"' :: r) =
      some (cs, (cs.flatMap escapeChar).length + 1) := by
  induction cs with
  | nil => rfl
  | cons c cs ih =>
    rw [List.flatMap_cons, List.append_assoc, string?_escapeChar, ih, List.length_append]
    show some (c :: cs, _) = some (c :: cs, _)
    congr 2
    omega

/-- A string takes the machine one token further. -/
theorem readFrom_string {s : String} (hstep : st.step (.str s.toList) = some st') (r : List Char) :
    readFrom st (renderString s ++ r) = readFrom st' r := by
  have htoken : token? '"' (s.toList.flatMap escapeChar ++ '"' :: r) =
      some (.str s.toList, (s.toList.flatMap escapeChar).length + 1) := by
    show (string? none _).map _ = _
    rw [string?_render]
    rfl
  have hdrop : (s.toList.flatMap escapeChar ++ '"' :: r).drop
      ((s.toList.flatMap escapeChar).length + 1) = r := by
    rw [List.drop_append]
    simp
  unfold renderString
  rw [List.cons_append, List.cons_append, List.append_assoc]
  rw [List.singleton_append, readFrom_token (by decide) htoken hstep, hdrop]

/-! ## Numbers -/

/-- A text that carries a number no further. -/
def EndsNumber (r : List Char) : Prop :=
  ∀ c ∈ r.head?, isDigit c = false ∧ c ≠ '.' ∧ c ≠ 'e' ∧ c ≠ 'E'

/-- Behind an integer there is no fraction. -/
theorem fraction?_of_ends (h : EndsNumber r) : fraction? r = some (none, 0) := by
  unfold fraction?
  split
  · exact absurd rfl (h '.' rfl).2.1
  · rfl

theorem exponent?_of_ends (h : EndsNumber r) : exponent? r = some (none, 0) := by
  unfold exponent?
  split
  · rename_i c r
    rw [if_neg]
    simpa using (h c rfl).2.2
  · rfl

theorem isDigit_of_mem_toDigits {n : Nat} (h : c ∈ Nat.toDigits 10 n) : isDigit c = true :=
  isDigit_iff.mpr (Nat.isDigit_of_mem_toDigits (by decide) (by decide) h)

/-- The digits of a number end where it does. -/
theorem takeWhile_toDigits (n : Nat) (h : EndsNumber r) :
    (Nat.toDigits 10 n ++ r).takeWhile isDigit = Nat.toDigits 10 n := by
  rw [List.takeWhile_append_of_pos fun c => isDigit_of_mem_toDigits]
  cases r with
  | nil => simp
  | cons c r => rw [List.takeWhile_cons_of_neg (by rw [(h c rfl).1]; decide), List.append_nil]

/-- The digits of a number are read as a whole number, which does not begin with a zero unless it is
    one. -/
theorem whole?_toDigits (n : Nat) (h : EndsNumber r) :
    whole? (Nat.toDigits 10 n ++ r) = some (Nat.toDigits 10 n) := by
  unfold whole?
  rw [takeWhile_toDigits n h]
  split
  · exact absurd ‹_› Nat.toDigits_ne_nil
  · rename_i ds hzero
    -- a single zero is allowed to stand in front
    rcases Nat.eq_zero_or_pos n with rfl | hpos
    · rfl
    · exact absurd (by rw [hzero]; rfl) (head?_toDigits hpos)
  · rfl

/-- Digits do not begin with the sign. -/
theorem toDigits_not_sign (n : Nat) (r s : List Char) : Nat.toDigits 10 n ++ r ≠ '-' :: s := by
  intro h
  obtain ⟨c, ds, hdigits, hdigit⟩ := exists_toDigits n
  rw [hdigits] at h
  rw [(List.cons.inj h).1] at hdigit
  exact absurd hdigit (by decide)

/-- The literal of an integer is read as it was written. -/
theorem number?_render (negative : Bool) (n : Nat) (h : EndsNumber r) :
    number? (JsonNumber.render ⟨negative, n, none, none⟩ ++ r) =
      some (⟨negative, n, none, none⟩, (JsonNumber.render ⟨negative, n, none, none⟩).length) := by
  have hvalue := JsonNumber.digitsValue_toDigits n
  have hsign := toDigits_not_sign n r
  unfold JsonNumber.render number?
  cases negative with
  | true =>
    simp [whole?_toDigits n h, fraction?_of_ends h, exponent?_of_ends h, hvalue, Nat.add_comm]
  | false => simp [whole?_toDigits n h, fraction?_of_ends h, exponent?_of_ends h, hvalue]

/-- A number begins with a digit or with the sign. -/
def beginsNumber (c : Char) : Bool := isDigit c || c == '-'

/-- What is written for an integer begins like a number. -/
theorem render_beginsNumber (negative : Bool) (n : Nat) :
    ∃ c cs, JsonNumber.render ⟨negative, n, none, none⟩ = c :: cs ∧ beginsNumber c = true := by
  cases negative with
  | true => exact ⟨'-', _, rfl, rfl⟩
  | false =>
    obtain ⟨c, ds, hdigits, hdigit⟩ := exists_toDigits n
    exact ⟨c, ds, by simp [JsonNumber.render, hdigits],
      by simp [beginsNumber, isDigit_iff.mpr hdigit]⟩

theorem ne_of_beginsNumber (h : beginsNumber c = true) {x : Char} (hx : beginsNumber x = false) :
    c ≠ x := by
  rintro rfl
  rw [h] at hx
  exact absurd hx (by decide)

/-- What begins like a number is read as one, as no other token begins so. -/
theorem token?_number (h : beginsNumber c = true) (r : List Char) :
    token? c r = (number? (c :: r)).map fun p => (.num p.1, p.2 - 1) := by
  unfold token?
  iterate 10 rw [if_neg (ne_of_beginsNumber h (by decide))]

/-- An integer takes the machine one token further. -/
theorem readFrom_number {negative : Bool}
    (hstep : st.step (.num ⟨negative, n, none, none⟩) = some st') (hr : EndsNumber r) :
    readFrom st (JsonNumber.render ⟨negative, n, none, none⟩ ++ r) = readFrom st' r := by
  obtain ⟨c, cs, hrender, hbegins⟩ := render_beginsNumber negative n
  have hnumber := number?_render negative n hr
  rw [hrender] at hnumber ⊢
  have hgap : isGap c = false := by
    unfold isGap
    simp [ne_of_beginsNumber hbegins (x := ' ') (by decide),
      ne_of_beginsNumber hbegins (x := '\t') (by decide),
      ne_of_beginsNumber hbegins (x := '\n') (by decide),
      ne_of_beginsNumber hbegins (x := '\r') (by decide)]
  have htoken : token? c (cs ++ r) = some (.num ⟨negative, n, none, none⟩, cs.length) := by
    rw [token?_number hbegins, ← List.cons_append, hnumber]
    rfl
  rw [List.cons_append, readFrom_token hgap htoken hstep, List.drop_left]

/-! ## Values -/

/-- A value may come, to be put on the stack. -/
def Awaits (st : State) (stack : List Frame) : Prop :=
  ∀ t, t ≠ .closeBracket → st.step t = State.start stack t

theorem awaits_value (stack : List Frame) : Awaits (.value stack) stack := fun _ _ => rfl

/-- Behind an opening bracket a value may come as well as the closing one. -/
theorem awaits_element (stack : List Frame) (done : List Json) :
    Awaits (.element (.arr done :: stack)) (.arr done :: stack) := by
  intro t ht
  cases t <;> first | rfl | exact absurd rfl ht

/-- Written in front of a rest, the value is read wherever there is room for `d` more open
    containers. -/
def ReadsBack (d : Nat) (v : Json) : Prop :=
  ∀ st stack r, Awaits st stack → stack.length + d ≤ maxDepth → EndsNumber r →
    readFrom st (renderChars v ++ r) = readFrom (.complete v stack) r

/-- Punctuation takes the machine one token further. -/
theorem readFrom_mark (hgap : isGap c = false) (htoken : token? c r = some (t, 0))
    (hstep : st.step t = some st') :
    readFrom st (c :: r) = readFrom st' r := readFrom_token hgap htoken hstep

/-- The word for no value. -/
theorem readsBack_null (d : Nat) : ReadsBack d .null := by
  intro st stack r hst _ _
  have htoken : token? 'n' ('u' :: 'l' :: 'l' :: r) = some (.null, 3) := rfl
  rw [renderChars]
  exact readFrom_token (by decide) htoken (hst .null (by decide))

/-- The words for truth values. -/
theorem readsBack_bool (d : Nat) (b : Bool) : ReadsBack d (.bool b) := by
  intro st stack r hst _ _
  have hstep := hst (.bool b) (by simp)
  cases b with
  | true =>
    have htoken : token? 't' ('r' :: 'u' :: 'e' :: r) = some (.bool true, 3) := rfl
    rw [renderChars]
    exact readFrom_token (by decide) htoken hstep
  | false =>
    have htoken : token? 'f' ('a' :: 'l' :: 's' :: 'e' :: r) = some (.bool false, 4) := rfl
    rw [renderChars]
    exact readFrom_token (by decide) htoken hstep

/-- Integers. -/
theorem readsBack_num (d : Nat) (negative : Bool) (n : Nat) :
    ReadsBack d (.num ⟨negative, n, none, none⟩) := by
  intro st stack r hst _ hr
  rw [renderChars]
  exact readFrom_number (hst _ (by simp)) hr

/-- Strings. -/
theorem readsBack_str (d : Nat) (s : String) : ReadsBack d (.str s) := by
  intro st stack r hst _ _
  have hstep := hst (.str s.toList) (by simp)
  rw [State.start, String.ofList_toList] at hstep
  rw [renderChars]
  exact readFrom_string hstep r

/-- What comes behind an element, a comma or the closing bracket, carries no number further. -/
theorem endsNumber_renderElements (vs : List Json) (r : List Char) :
    EndsNumber (renderElements vs ++ r) := by
  cases vs <;> simp [EndsNumber, renderElements] <;> decide

/-- The further elements of a list go on the stack one by one. -/
theorem readFrom_renderElements {d : Nat} {vs : List Json} (h : ∀ v ∈ vs, ReadsBack d v)
    (hdepth : stack.length + (d + 1) ≤ maxDepth) (done : List Json) (r : List Char) :
    readFrom (.next (.arr done :: stack)) (renderElements vs ++ r) =
      readFrom (.complete (.arr (done.reverse ++ vs)) stack) r := by
  induction vs generalizing done with
  | nil =>
    rw [renderElements, List.append_nil]
    exact readFrom_mark (by decide) rfl rfl
  | cons v vs ih =>
    -- a comma, and then the element with the same room as those before it
    have hv := h v List.mem_cons_self (.value (.arr done :: stack)) (.arr done :: stack)
      (renderElements vs ++ r) (awaits_value _) (by rw [List.length_cons]; omega)
      (endsNumber_renderElements vs r)
    have hrest := ih (fun w hw => h w (List.mem_cons_of_mem v hw)) (v :: done)
    rw [renderElements, List.cons_append, List.cons_append, List.append_assoc,
      readFrom_mark (by decide) rfl rfl, hv]
    rw [State.complete, hrest, List.reverse_cons, List.append_assoc, List.singleton_append]

/-- A list is one level deeper than its elements. -/
theorem readsBack_arr {d : Nat} {vs : List Json} (h : ∀ v ∈ vs, ReadsBack d v) :
    ReadsBack (d + 1) (.arr vs) := by
  intro st stack r hst hdepth _
  have hopen : st.step .openBracket = some (.element (.arr [] :: stack)) := by
    rw [hst _ (by simp), State.start, if_pos (by omega)]
  -- the first element follows the bracket, all others a comma
  cases vs with
  | nil =>
    rw [renderChars]
    exact (readFrom_mark (by decide) rfl hopen).trans (readFrom_mark (by decide) rfl rfl)
  | cons v vs =>
    have hv := h v List.mem_cons_self _ (.arr [] :: stack) (renderElements vs ++ r)
      (awaits_element stack []) (by rw [List.length_cons]; omega) (endsNumber_renderElements vs r)
    rw [renderChars, List.cons_append, List.cons_append, List.append_assoc,
      readFrom_mark (by decide) rfl hopen, hv]
    exact readFrom_renderElements (fun w hw => h w (List.mem_cons_of_mem v hw)) hdepth [v] r

theorem endsNumber_renderMembers (ms : List (String × Json)) (r : List Char) :
    EndsNumber (renderMembers ms ++ r) := by
  cases ms <;> simp [EndsNumber, renderMembers] <;> decide

/-- A member goes on the stack with its name. -/
theorem readFrom_member {d : Nat} {v : Json} {done : List (String × Json)} (h : ReadsBack d v)
    (hdepth : stack.length + (d + 1) ≤ maxDepth) (k : String)
    (hkey : st.step (.str k.toList) =
      some (.colon (.member done (String.ofList k.toList) :: stack)))
    (hr : EndsNumber r) :
    readFrom st (renderString k ++ ':' :: renderChars v ++ r) =
      readFrom (.next (.obj ((k, v) :: done) :: stack)) r := by
  have hv := h (.value (.member done k :: stack)) (.member done k :: stack) r (awaits_value _)
    (by rw [List.length_cons]; omega) hr
  rw [String.ofList_toList] at hkey
  rw [List.append_assoc, readFrom_string hkey, List.cons_append, readFrom_mark (by decide) rfl rfl,
    hv]
  rfl

/-- The further members of an object go on the stack one by one. -/
theorem readFrom_renderMembers {d : Nat} {ms : List (String × Json)} (h : ∀ m ∈ ms, ReadsBack d m.2)
    (hdepth : stack.length + (d + 1) ≤ maxDepth) (done : List (String × Json)) (r : List Char) :
    readFrom (.next (.obj done :: stack)) (renderMembers ms ++ r) =
      readFrom (.complete (.obj (done.reverse ++ ms)) stack) r := by
  induction ms generalizing done with
  | nil =>
    rw [renderMembers, List.append_nil]
    exact readFrom_mark (by decide) rfl rfl
  | cons m ms ih =>
    obtain ⟨k, v⟩ := m
    have hrest := ih (fun w hw => h w (List.mem_cons_of_mem (k, v) hw)) ((k, v) :: done)
    rw [renderMembers, List.append_assoc, List.cons_append, List.cons_append,
      readFrom_mark (by decide) rfl rfl,
      readFrom_member (h (k, v) List.mem_cons_self) hdepth k rfl (endsNumber_renderMembers ms r)]
    rw [hrest, List.reverse_cons, List.append_assoc, List.singleton_append]

/-- An object is one level deeper than the values of its members. -/
theorem readsBack_obj {d : Nat} {ms : List (String × Json)} (h : ∀ m ∈ ms, ReadsBack d m.2) :
    ReadsBack (d + 1) (.obj ms) := by
  intro st stack r hst hdepth _
  have hopen : st.step .openBrace = some (.key (.obj [] :: stack)) := by
    rw [hst _ (by simp), State.start, if_pos (by omega)]
  cases ms with
  | nil =>
    rw [renderChars]
    exact (readFrom_mark (by decide) rfl hopen).trans (readFrom_mark (by decide) rfl rfl)
  | cons m ms =>
    obtain ⟨k, v⟩ := m
    rw [renderChars, List.append_assoc, List.cons_append, List.cons_append,
      readFrom_mark (by decide) rfl hopen,
      readFrom_member (h (k, v) List.mem_cons_self) hdepth k rfl (endsNumber_renderMembers ms r)]
    exact readFrom_renderMembers (fun w hw => h w (List.mem_cons_of_mem (k, v) hw)) hdepth
      [(k, v)] r

/-! ## Texts -/

/-- Values whose numbers are all integers, with containers nested up to `d` deep. -/
inductive Writable : Nat → Json → Prop
  | null {d : Nat} : Writable d .null
  | bool {d : Nat} (b : Bool) : Writable d (.bool b)
  | num {d : Nat} (negative : Bool) (whole : Nat) : Writable d (.num ⟨negative, whole, none, none⟩)
  | str {d : Nat} (s : String) : Writable d (.str s)
  | arr {d : Nat} {vs : List Json} (h : ∀ v ∈ vs, Writable d v) : Writable (d + 1) (.arr vs)
  | obj {d : Nat} {ms : List (String × Json)} (h : ∀ m ∈ ms, Writable d m.2) :
      Writable (d + 1) (.obj ms)

/-- **Whatever can be written is read back**, by induction on the value. -/
theorem Writable.readsBack {d : Nat} {v : Json} (h : Writable d v) : ReadsBack d v := by
  induction h with
  | null => exact readsBack_null _
  | bool b => exact readsBack_bool _ b
  | num negative whole => exact readsBack_num _ negative whole
  | str s => exact readsBack_str _ s
  | arr _ ih => exact readsBack_arr ih
  | obj _ ih => exact readsBack_obj ih

/-- A value is read back from its text, whatever white space stands around it. -/
theorem Writable.ofChars?_eq {d : Nat} {v : Json} (h : Writable d v) (hdepth : d ≤ maxDepth)
    {before after : List Char} (hbefore : ∀ c ∈ before, isGap c = true)
    (hafter : ∀ c ∈ after, isGap c = true) :
    ofChars? (before ++ renderChars v ++ after) = some v := by
  -- white space ends a number
  have hends : EndsNumber after := by
    cases after with
    | nil => simp [EndsNumber]
    | cons c after =>
      have hgap := hafter c List.mem_cons_self
      simp only [isGap, Bool.or_eq_true, decide_eq_true_eq] at hgap
      obtain ((rfl | rfl) | rfl) | rfl := hgap <;> simp [EndsNumber] <;> decide
  have hrest : readFrom (.finished v) after = some v := by
    rw [← List.append_nil after, readFrom_gaps hafter]
    rfl
  rw [Json.ofChars?_eq, List.append_assoc, readFrom_gaps hbefore,
    h.readsBack _ [] _ (awaits_value []) (by rw [List.length_nil]; omega) hends]
  exact hrest

theorem Writable.ofBytes?_eq {d : Nat} {v : Json} (h : Writable d v) (hdepth : d ≤ maxDepth)
    (before after : String) (hbefore : ∀ c ∈ before.toList, isGap c = true)
    (hafter : ∀ c ∈ after.toList, isGap c = true) :
    ofBytes? (Bytes.ofString (before ++ v.render ++ after)) = some v := by
  have htext : (before ++ v.render ++ after).toList =
      before.toList ++ renderChars v ++ after.toList := by
    simp [render]
  rw [ofBytes?, Utf8.chars_ofString, htext]
  exact h.ofChars?_eq hdepth hbefore hafter

theorem Writable.ofBytes?_render {d : Nat} {v : Json} (h : Writable d v) (hdepth : d ≤ maxDepth) :
    ofBytes? (Bytes.ofString v.render) = some v := by
  have htext := h.ofBytes?_eq hdepth "" "" (by simp) (by simp)
  simpa using htext

end MarkupLint.Json
