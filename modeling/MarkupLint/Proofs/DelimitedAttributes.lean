/-
  Two readers of one tag. To find the end of a tag, the tokenizer goes over it byte by byte, and its
  states (`TagState`) tell which bytes are a key and which are a value: `delimited` puts these
  together. What the rules see is read from the raw text of the tag by a reader of its own,
  `attributes`. The two readers agree on a tag just when no key that the tokenizer delimits begins
  with `=`: there the tokenizer begins a key, and the attribute reader passes over a value whose
  name is missing, which may be a quoted one and take further attributes with it.

  The attribute reader is followed turn by turn. Between turns it stands where the tokenizer is in a
  gap between attributes, or in a state that what follows does not tell from a gap.
-/
import MarkupLint.Proofs.MarkupOffsets
import MarkupLint.Proofs.WrittenTags

namespace MarkupLint.Markup

open Ascii

/-! ## Keys and values -/

/-- What a byte of a tag is to the attributes of the tag. -/
inductive Part where
  | opensKey
  | key
  | value
  | other
  deriving DecidableEq, Repr

/-- What the byte is that takes the tokenizer from one state to another: the quotes around a value
    are no part of it. -/
def Part.between : TagState → TagState → Part
  | .gap, .key | .afterKey, .key => .opensKey
  | .key, .key => .key
  | .beforeValue, .unquoted | .unquoted, .unquoted | .quoted _, .quoted _ => .value
  | _, _ => .other

/-- What a byte is in a state of the tokenizer. -/
def TagState.part (st : TagState) (b : UInt8) : Part := .between st (st.next b)

/-- The keys and values found so far, the latest first, with a further piece of the tag. -/
def Part.add (piece : Bytes) : Part → List (Bytes × Bytes) → List (Bytes × Bytes)
  | .opensKey, found => (piece, []) :: found
  | .key, (k, v) :: found => (k ++ piece, v) :: found
  | .value, (k, v) :: found => (k, v ++ piece) :: found
  | _, found => found

/-- The keys and values that are found when the tokenizer goes on from a state. -/
def delimitFrom (st : TagState) (found : List (Bytes × Bytes)) : Bytes → List (Bytes × Bytes)
  | [] => found.reverse
  | b :: r => delimitFrom (st.next b) ((st.part b).add [b] found) r

/-- The keys and values that the tokenizer delimits in a start tag, which begins with `<`. -/
def delimited (raw : Bytes) : List (Bytes × Bytes) := delimitFrom .name [] (raw.drop 1)

/-- The key and the value of an attribute; without a value it counts as empty. -/
def Attribute.pair (a : Attribute) : Bytes × Bytes := (a.name, a.value.getD [])

/-- The key begins with `=`. -/
def ledByEquals (kv : Bytes × Bytes) : Bool := kv.1.head? = some equals

/-! ## Runs of the tokenizer -/

section Runs

variable {st st' : TagState} {found : List (Bytes × Bytes)} {k v run r : Bytes} {b q : UInt8}

theorem TagState.part_of_next (h : st.next b = st') : st.part b = .between st st' :=
  h ▸ rfl

theorem delimitFrom_step (h : st.next b = st') (found : List (Bytes × Bytes)) (r : Bytes) :
    delimitFrom st found (b :: r) = delimitFrom st' ((Part.between st st').add [b] found) r := by
  rw [delimitFrom, h, TagState.part_of_next h]

/-- Behind the end of the tag nothing is found. -/
theorem delimitFrom_closed (s : Bytes) : delimitFrom .closed found s = found.reverse := by
  induction s with
  | nil => rfl
  | cons b r ih => exact ih

/-- Two pieces of one part come to one piece. -/
theorem Part.add_add {p : Part} (hp : p ≠ .opensKey) (x y : Bytes) :
    p.add y (p.add x found) = p.add (x ++ y) found := by
  cases p with
  | opensKey => exact absurd rfl hp
  | key => cases found <;> simp [Part.add]
  | value => cases found <;> simp [Part.add]
  | other => rfl

theorem Part.add_nil {p : Part} (hp : p ≠ .opensKey) : p.add [] found = found := by
  cases p with
  | opensKey => exact absurd rfl hp
  | key => cases found <;> simp [Part.add]
  | value => cases found <;> simp [Part.add]
  | other => rfl

/-- A run of bytes of one part, over which the state stays, is put to that part as a whole. -/
theorem delimitFrom_run {p : Part} (hp : p ≠ .opensKey)
    (h : ∀ b ∈ run, st.next b = st ∧ st.part b = p) :
    delimitFrom st found (run ++ r) = delimitFrom st (p.add run found) r := by
  induction run generalizing found with
  | nil => rw [Part.add_nil hp, List.nil_append]
  | cons b run ih =>
    obtain ⟨hnext, hpart⟩ := h b List.mem_cons_self
    rw [List.cons_append, delimitFrom, hnext, hpart, ih fun x hx => h x (List.mem_cons_of_mem b hx),
      Part.add_add hp, List.singleton_append]

theorem name_nameByte (h : isNameByte b = true) :
    TagState.name.next b = .name ∧ TagState.name.part b = .other := by
  have hnext : TagState.name.next b = .name := by
    simp only [isNameByte, Bool.not_eq_true', Bool.or_eq_false_iff, decide_eq_false_iff_not] at h
    simp [TagState.next, h]
  exact ⟨hnext, TagState.part_of_next hnext⟩

theorem gap_separator (h : isSeparator b = true) :
    TagState.gap.next b = .gap ∧ TagState.gap.part b = .other := by
  have hgt : b ≠ greaterThan := by
    rintro rfl
    exact absurd h (by decide)
  have hnext : TagState.gap.next b = .gap := by
    simp only [isSeparator] at h
    simp [TagState.next, hgt, h]
  exact ⟨hnext, TagState.part_of_next hnext⟩

theorem key_attributeByte (h : isAttributeByte b = true) :
    TagState.key.next b = .key ∧ TagState.key.part b = .key := by
  have hnext : TagState.key.next b = .key := by
    simp only [isAttributeByte, Bool.not_eq_true', Bool.or_eq_false_iff,
      decide_eq_false_iff_not] at h
    simp [TagState.next, h]
  exact ⟨hnext, TagState.part_of_next hnext⟩

theorem unquoted_unquotedByte (h : isUnquotedByte b = true) :
    TagState.unquoted.next b = .unquoted ∧ TagState.unquoted.part b = .value := by
  have hnext : TagState.unquoted.next b = .unquoted := by
    simp only [isUnquotedByte, Bool.not_eq_true', Bool.or_eq_false_iff,
      decide_eq_false_iff_not] at h
    simp [TagState.next, h]
  exact ⟨hnext, TagState.part_of_next hnext⟩

/-- Inside quotes every byte but the closing quote is of the value. -/
theorem quoted_ne (h : (b != q) = true) :
    (TagState.quoted q).next b = .quoted q ∧ (TagState.quoted q).part b = .value := by
  have hnext : (TagState.quoted q).next b = .quoted q := by simpa [TagState.next] using h
  exact ⟨hnext, TagState.part_of_next hnext⟩

theorem beforeValue_space (h : isSpace b = true) :
    TagState.beforeValue.next b = .beforeValue ∧ TagState.beforeValue.part b = .other := by
  have hgt : b ≠ greaterThan := by
    rintro rfl
    exact absurd h (by decide)
  have hnext : TagState.beforeValue.next b = .beforeValue := by simp [TagState.next, hgt, h]
  exact ⟨hnext, TagState.part_of_next hnext⟩

/-! ## States that are like a gap -/

/-- What follows does not tell the state from a gap between attributes. -/
def LikeGap (st : TagState) (r : Bytes) : Prop :=
  ∀ found, delimitFrom st found r = delimitFrom .gap found r

/-- The state goes on as from a gap when the next byte belongs to no attribute and leads to where it
    leads from a gap. -/
theorem likeGap_of_head (h : ∀ b ∈ r.head?, st.next b = TagState.gap.next b ∧
    st.part b = .other ∧ TagState.gap.part b = .other) : LikeGap st r := by
  intro found
  cases r with
  | nil => rfl
  | cons b r =>
    obtain ⟨hnext, hpart, hgap⟩ := h b rfl
    rw [delimitFrom, delimitFrom, hnext, hpart, hgap]

/-- Where the name of the tag has ended, a gap or the end of the tag follows. -/
theorem likeGap_name (h : ∀ b ∈ r.head?, isNameByte b = false) : LikeGap .name r := by
  refine likeGap_of_head fun b hb => ?_
  have hb := h b hb
  simp only [isNameByte, Bool.not_eq_false', Bool.or_eq_true, decide_eq_true_eq] at hb
  -- the byte ends the tag in both states, or opens a gap in both
  by_cases hgt : b = greaterThan
  · subst hgt; decide
  · have hsep : (isSpace b || b = slash) = true := by simpa [hgt] using hb
    have hname : TagState.name.next b = .gap := by simp [TagState.next, hgt, hsep]
    have hgap : TagState.gap.next b = .gap := by simp [TagState.next, hgt, hsep]
    exact ⟨hname.trans hgap.symm, TagState.part_of_next hname, TagState.part_of_next hgap⟩

theorem likeGap_unquoted (h : ∀ b ∈ r.head?, isUnquotedByte b = false) : LikeGap .unquoted r := by
  refine likeGap_of_head fun b hb => ?_
  have hb := h b hb
  simp only [isUnquotedByte, Bool.not_eq_false', Bool.or_eq_true, decide_eq_true_eq] at hb
  by_cases hgt : b = greaterThan
  · subst hgt; decide
  · have hspace : isSpace b = true := by simpa [hgt] using hb
    have hunquoted : TagState.unquoted.next b = .gap := by simp [TagState.next, hgt, hspace]
    have hgap : TagState.gap.next b = .gap := by simp [TagState.next, hgt, hspace]
    exact ⟨hunquoted.trans hgap.symm, TagState.part_of_next hunquoted, TagState.part_of_next hgap⟩

/-- White space keeps a gap a gap, and a key that has ended ended. -/
theorem afterKey_space (h : isSpace b = true) (found : List (Bytes × Bytes)) :
    delimitFrom .key found (b :: r) = delimitFrom .afterKey found r ∧
    delimitFrom .afterKey found (b :: r) = delimitFrom .afterKey found r ∧
    delimitFrom .gap found (b :: r) = delimitFrom .gap found r := by
  have hgt : b ≠ greaterThan ∧ b ≠ equals ∧ b ≠ slash := by
    refine ⟨?_, ?_, ?_⟩ <;> rintro rfl <;> exact absurd h (by decide)
  have hkey : TagState.key.next b = .afterKey := by simp [TagState.next, hgt, h]
  have hafter : TagState.afterKey.next b = .afterKey := by simp [TagState.next, hgt, h]
  have hgap : TagState.gap.next b = .gap := by simp [TagState.next, hgt, h]
  exact ⟨delimitFrom_step hkey found r, delimitFrom_step hafter found r,
    delimitFrom_step hgap found r⟩

/-- Behind a key and white space the tokenizer still waits for an `=`; if none comes, it might as
    well be in a gap. The induction is on the white space. -/
theorem likeGap_afterKey (h : ∀ b ∈ (r.dropWhile isSpace).head?, b ≠ equals) :
    LikeGap .afterKey r := by
  intro found
  induction r with
  | nil => rfl
  | cons b r ih =>
    by_cases hspace : isSpace b = true
    · obtain ⟨-, hafter, hgap⟩ := afterKey_space (r := r) hspace found
      rw [hafter, hgap]
      exact ih fun x hx => h x (by simpa [hspace] using hx)
    · -- at the first byte that is no space the two states part, but not in what they make of it
      have hne : b ≠ equals := h b (by simp [hspace])
      have hnext : TagState.afterKey.next b = TagState.gap.next b := by
        by_cases hslash : b = slash
        · subst hslash; decide
        · simp [TagState.next, hne, hspace, hslash]
      have hpart : TagState.afterKey.part b = TagState.gap.part b := by
        rw [TagState.part_of_next hnext, TagState.part_of_next rfl]
        cases TagState.gap.next b <;> rfl
      rw [delimitFrom, delimitFrom, hnext, hpart]

/-- A key that has ended, and for which no `=` comes, is followed by a gap. -/
theorem likeGap_key (hfront : ∀ b ∈ r.head?, isAttributeByte b = false)
    (h : ∀ b ∈ (r.dropWhile isSpace).head?, b ≠ equals) : LikeGap .key r := by
  intro found
  cases r with
  | nil => rfl
  | cons b r =>
    by_cases hspace : isSpace b = true
    · obtain ⟨hkey, -, hgap⟩ := afterKey_space (r := r) hspace found
      rw [hkey, hgap]
      exact likeGap_afterKey (fun x hx => h x (by simpa [hspace] using hx)) found
    · have hne : b ≠ equals := h b (by simp [hspace])
      refine likeGap_of_head (fun x hx => ?_) found
      obtain rfl : b = x := Option.some.inj hx
      have hb := hfront b rfl
      simp only [isAttributeByte, Bool.not_eq_false', Bool.or_eq_true, decide_eq_true_eq] at hb
      rcases hb with ((hb | hb) | rfl) | rfl
      · exact absurd hb hspace
      · exact absurd hb hne
      · decide
      · decide

/-! ## One turn of the attribute reader -/

/-- The cursor stands at a byte that it did not pass over. -/
theorem not_of_mem_past {p : UInt8 → Bool} {c : Cursor} (hb : b ∈ (c.past p).rest.head?) :
    p b = false := by
  obtain ⟨r, hr⟩ := List.head?_eq_some_iff.mp hb
  exact Cursor.not_of_past hr


/-- Bytes over which the state stays, and which belong to no attribute, are passed over. -/
theorem delimitFrom_past {p : UInt8 → Bool} {c : Cursor}
    (h : ∀ b, p b = true → st.next b = st ∧ st.part b = .other) :
    delimitFrom st found c.rest = delimitFrom st found (c.past p).rest := by
  rw [c.rest_eq_span_append p]
  exact delimitFrom_run (p := .other) (by simp) fun b hb => h b (mem_span hb)

/-- Behind a closing quote, or where it is missing at the end of the text, there is a gap. -/
theorem delimitFrom_quoted {c : Cursor} :
    delimitFrom (.quoted q) ((k, []) :: found) c.rest =
      delimitFrom .gap ((k, c.span (· != q)) :: found) (c.past (· != q)).skip.rest := by
  rw [c.rest_eq_span_append (· != q),
    delimitFrom_run (p := .value) (by simp) fun b hb =>
      quoted_ne (mem_span (p := (· != q)) hb)]
  cases hpast : (c.past (· != q)).rest with
  | nil => simp [Cursor.skip, hpast, delimitFrom, Part.add]
  | cons x r =>
    obtain rfl : x = q := by simpa using Cursor.not_of_past hpast
    have hend : (TagState.quoted x).next x = .gap := by simp [TagState.next]
    rw [Cursor.skip, hpast, delimitFrom_step hend]
    rfl

/-- Behind a value without quotes there is a gap. -/
theorem delimitFrom_unquoted {c : Cursor} :
    delimitFrom .unquoted ((k, []) :: found) c.rest =
      delimitFrom .gap ((k, c.span isUnquotedByte) :: found) (c.past isUnquotedByte).rest := by
  rw [c.rest_eq_span_append isUnquotedByte,
    delimitFrom_run (p := .value) (by simp) fun b hb => unquoted_unquotedByte (mem_span hb)]
  exact likeGap_unquoted (fun b hb => not_of_mem_past hb) _

/-- The value that is read is the one that the tokenizer delimits, in quotes or without. -/
theorem delimitFrom_readValue {c : Cursor} (hfront : ∀ b ∈ c.rest.head?, isSpace b = false) :
    delimitFrom .beforeValue ((k, []) :: found) c.rest =
      delimitFrom .gap ((k, (readValue c).1) :: found) (readValue c).2.rest := by
  cases hrest : c.rest with
  | nil => simp [readValue, hrest, delimitFrom]
  | cons b r =>
    have hspace : isSpace b = false := hfront b (by simp [hrest])
    by_cases hquote : b = quote ∨ b = apostrophe
    · have hskip : c.skip.rest = r := by simp [Cursor.skip, hrest]
      have hopen : delimitFrom .beforeValue ((k, []) :: found) (b :: r) =
          delimitFrom (.quoted b) ((k, []) :: found) c.skip.rest := by
        rw [hskip]
        rcases hquote with rfl | rfl <;> rfl
      rw [hopen, readValue_of_quote hrest hquote, delimitFrom_quoted]
    · -- the byte is the first one of the value, or the `>` behind an empty one
      have hopen : delimitFrom .beforeValue ((k, []) :: found) (b :: r) =
          delimitFrom .unquoted ((k, []) :: found) c.rest := by
        rw [hrest]
        by_cases hgt : b = greaterThan
        · subst hgt; rfl
        · have hnot : ¬ (b = quote || b = apostrophe) = true := by simpa using hquote
          have hfirst : TagState.beforeValue.next b = .unquoted := by
            simp [TagState.next, hgt, hspace, hnot]
          have hlater : TagState.unquoted.next b = .unquoted := by simp [TagState.next, hgt, hspace]
          rw [delimitFrom_step hfirst, delimitFrom_step hlater]
          rfl
      rw [hopen, readValue_of_not_quote hrest hquote, delimitFrom_unquoted]

/-- A key, white space and `=` announce a value. -/
theorem delimitFrom_equals (h : ∀ b ∈ run, isSpace b = true) :
    delimitFrom .key found (run ++ equals :: r) = delimitFrom .beforeValue found r := by
  -- the first space leads from the key to `afterKey`, further ones stay there
  have hafter : ∀ run : Bytes, (∀ b ∈ run, isSpace b = true) →
      delimitFrom .afterKey found (run ++ equals :: r) = delimitFrom .beforeValue found r := by
    intro run h
    induction run with
    | nil => rfl
    | cons b run ih =>
      rw [List.cons_append, (afterKey_space (h b List.mem_cons_self) found).2.1]
      exact ih fun x hx => h x (List.mem_cons_of_mem b hx)
  cases run with
  | nil => rfl
  | cons b run =>
    rw [List.cons_append, (afterKey_space (h b List.mem_cons_self) found).1]
    exact hafter run fun x hx => h x (List.mem_cons_of_mem b hx)

/-- What is read behind a key is its value, and a gap follows. -/
theorem delimitFrom_readValuePart {c : Cursor}
    (hfront : ∀ b ∈ c.rest.head?, isAttributeByte b = false) :
    delimitFrom .key ((k, []) :: found) c.rest =
      delimitFrom .gap ((k, (readValuePart c).1.getD []) :: found) (readValuePart c).2.rest := by
  by_cases hequals : ∃ r, (c.past isSpace).rest = equals :: r
  · obtain ⟨r, hr⟩ := hequals
    have hskip : (c.past isSpace).skip.rest = r := by simp [Cursor.skip, hr]
    rw [readValuePart_of_equals hr, c.rest_eq_span_append isSpace, hr,
      delimitFrom_equals fun b hb => mem_span hb, ← hskip,
      delimitFrom_past fun b => beforeValue_space]
    exact delimitFrom_readValue fun b hb => not_of_mem_past hb
  · -- no `=` comes, so the attribute has no value
    have hno : ∀ b ∈ (c.past isSpace).rest.head?, b ≠ equals := by
      rintro b hb rfl
      exact hequals (List.head?_eq_some_iff.mp hb)
    rw [readValuePart_of_not_equals hno]
    exact likeGap_key hfront hno _

/-- In a gap a byte that neither separates nor ends the tag opens a key. -/
theorem delimitFrom_opensKey (hsep : isSeparator b = false) (hgt : b ≠ greaterThan) :
    delimitFrom .gap found (b :: r) = delimitFrom .key (([b], []) :: found) r := by
  simp only [isSeparator] at hsep
  have hkey : TagState.gap.next b = .key := by simp [TagState.next, hgt, hsep]
  exact delimitFrom_step hkey found r

/-- **What one turn reads** is what the tokenizer delimits meanwhile: one key with its value. -/
theorem delimitFrom_turn {c d : Cursor} {a : Attribute} (h : turn c = some (some a, d)) :
    delimitFrom .gap found c.rest = delimitFrom .gap (a.pair :: found) d.rest := by
  obtain ⟨b, r, hb, hgt, rfl, hread⟩ := turn_eq_some h
  obtain ⟨-, hne, hname, hvalue⟩ := hread a rfl
  have hsep : isSeparator b = false := Cursor.not_of_past hb
  have hbyte : isAttributeByte b = true := by
    cases hbyte : isAttributeByte b with
    | true => rfl
    | false => exact absurd (by simp [hname, Cursor.span, hb, hbyte]) hne
  -- a key that is opened is a key without bytes that goes on
  have hopen : delimitFrom .gap found (c.past isSeparator).rest =
      delimitFrom .key (([], []) :: found) (c.past isSeparator).rest := by
    rw [hb, delimitFrom_opensKey hsep hgt, delimitFrom, (key_attributeByte hbyte).1,
      (key_attributeByte hbyte).2]
    rfl
  rw [delimitFrom_past fun b => gap_separator, hopen,
    (c.past isSeparator).rest_eq_span_append isAttributeByte,
    delimitFrom_run (p := .key) (by simp) fun x hx => key_attributeByte (mem_span hx), Part.add,
    List.nil_append, delimitFrom_readValuePart fun x hx => not_of_mem_past hx, ← hname, ← hvalue]
  rfl

/-- Where no turn is left, the tokenizer finds nothing more: the text or the tag is at its end. -/
theorem delimitFrom_end {c : Cursor} (h : turn c = none) :
    delimitFrom .gap found c.rest = found.reverse := by
  rw [delimitFrom_past fun b => gap_separator]
  unfold turn at h
  simp only at h
  split at h
  · rename_i hnil
    rw [hnil]
    rfl
  · rename_i b r hb
    split at h
    · rename_i hgt
      subst hgt
      rw [hb]
      exact delimitFrom_closed r
    · exact absurd h (by simp)

/-! ## Keys that begin with `=` -/

/-- A key keeps its first byte when bytes are added behind it. -/
theorem exists_led_add {p : Part} (piece : Bytes) (h : ∃ kv ∈ found, ledByEquals kv = true) :
    ∃ kv ∈ p.add piece found, ledByEquals kv = true := by
  obtain ⟨kv, hkv, hled⟩ := h
  -- the latest key may be the one, with more bytes behind it or behind its value
  have hgrown : ∀ {k v x y : Bytes} {rest : List (Bytes × Bytes)}, found = (k, v) :: rest →
      ∃ kv ∈ (k ++ x, y) :: rest, ledByEquals kv = true := by
    rintro k v x y rest rfl
    rcases List.mem_cons.mp hkv with rfl | hkv
    · refine ⟨_, List.mem_cons_self, ?_⟩
      simp only [ledByEquals, decide_eq_true_eq] at hled ⊢
      rw [List.head?_append, hled]
      rfl
    · exact ⟨kv, List.mem_cons_of_mem _ hkv, hled⟩
  cases p with
  | opensKey => exact ⟨kv, List.mem_cons_of_mem _ hkv, hled⟩
  | other => exact ⟨kv, hkv, hled⟩
  | key =>
    cases found with
    | nil => exact absurd hkv List.not_mem_nil
    | cons f rest => exact hgrown rfl
  | value =>
    cases found with
    | nil => exact absurd hkv List.not_mem_nil
    | cons f rest => simpa [Part.add] using hgrown (x := []) (y := f.2 ++ piece) rfl

/-- A key that begins with `=` stays. -/
theorem exists_led_of_found (s : Bytes) (h : ∃ kv ∈ found, ledByEquals kv = true) :
    ∃ kv ∈ delimitFrom st found s, ledByEquals kv = true := by
  induction s generalizing st found with
  | nil =>
    obtain ⟨kv, hkv, hled⟩ := h
    exact ⟨kv, List.mem_reverse.mpr hkv, hled⟩
  | cons b s ih => exact ih (exists_led_add [b] h)

/-- A turn finds no name only in front of an `=`. -/
theorem equals_of_turn {c d : Cursor} (h : turn c = some (none, d)) :
    ∃ r, (c.past isSeparator).rest = equals :: r := by
  unfold turn at h
  simp only at h
  split at h
  · exact absurd h (by simp)
  · rename_i b r hb
    have hsep : isSeparator b = false := Cursor.not_of_past hb
    split at h
    · exact absurd h (by simp)
    · rename_i hgt
      split at h
      · rename_i hname
        have hbyte : isAttributeByte b = false := by
          simpa [Cursor.span, hb, List.takeWhile_cons] using hname
        refine ⟨r, ?_⟩
        simp only [isSeparator, Bool.or_eq_false_iff, decide_eq_false_iff_not] at hsep
        simp only [isAttributeByte, Bool.not_eq_false', Bool.or_eq_true, decide_eq_true_eq] at hbyte
        -- of the bytes that are in no name, `=` alone is left
        rcases hbyte with ((hbyte | hbyte) | hbyte) | hbyte
        · simp [hsep.1] at hbyte
        · rw [hb, hbyte]
        · exact absurd hbyte hgt
        · exact absurd hbyte hsep.2
      · exact absurd h (by simp)

/-- Where a turn finds a value without a name, the tokenizer begins a key with `=`. -/
theorem exists_led_of_turn {c d : Cursor} (h : turn c = some (none, d))
    (found : List (Bytes × Bytes)) :
    ∃ kv ∈ delimitFrom .gap found c.rest, ledByEquals kv = true := by
  obtain ⟨r, hr⟩ := equals_of_turn h
  rw [delimitFrom_past fun b => gap_separator, hr, delimitFrom_opensKey (by decide) (by decide)]
  exact exists_led_of_found r ⟨_, List.mem_cons_self, rfl⟩

/-- What the attribute reader reads from a cursor on, when the tokenizer finds no key that begins
    with `=`. The induction is on the turns. -/
theorem delimitFrom_attributesFrom {c : Cursor}
    (h : ∀ kv ∈ delimitFrom .gap found c.rest, ledByEquals kv = false) :
    delimitFrom .gap found c.rest = found.reverse ++ (attributesFrom c).map Attribute.pair := by
  fun_induction attributesFrom c generalizing found with
  | case1 c hturn => simp [delimitFrom_end hturn]
  | case2 c x d hturn ih =>
    cases x with
    -- a turn without a name contradicts the assumption
    | none =>
      obtain ⟨kv, hkv, hled⟩ := exists_led_of_turn hturn found
      exact absurd hled (by simp [h kv hkv])
    | some a =>
      rw [delimitFrom_turn hturn] at h ⊢
      rw [ih h]
      simp

end Runs

/-- A name that is read holds no `=`. -/
theorem not_led_of_mem_attributesFrom {c : Cursor} {a : Attribute} (ha : a ∈ attributesFrom c) :
    ledByEquals a.pair = false := by
  refine decide_eq_false fun hhead => ?_
  have hmem : equals ∈ a.name := List.mem_of_mem_head? hhead
  exact absurd ((name_of_mem_attributesFrom ha).2 equals hmem) (by decide)

/-- The readers agree on a text just when the tokenizer finds no key in it that begins with `=`. -/
theorem attributes_eq_delimited_iff (raw : Bytes) :
    (attributes raw).map Attribute.pair = delimited raw ↔
      ∀ kv ∈ delimited raw, ledByEquals kv = false := by
  -- both readers begin behind the name of the tag
  have hname : delimited raw =
      delimitFrom .gap [] (Cursor.past isNameByte ⟨1, raw.drop 1⟩).rest := by
    have hrun : delimitFrom .name [] (raw.drop 1) =
        delimitFrom .name [] (Cursor.past isNameByte ⟨1, raw.drop 1⟩).rest :=
      delimitFrom_past (c := ⟨1, raw.drop 1⟩) fun b => name_nameByte
    rw [delimited, hrun]
    exact likeGap_name (fun b hb => not_of_mem_past hb) []
  constructor
  · intro heq kv hkv
    rw [← heq] at hkv
    obtain ⟨a, ha, rfl⟩ := List.mem_map.mp hkv
    exact not_led_of_mem_attributesFrom ha
  · intro h
    rw [hname] at h ⊢
    rw [delimitFrom_attributesFrom h]
    rfl

/-! ## The tags of a document -/

/-- The end of a tag is found without the text behind it. -/
theorem tagLength?_take {st : TagState} {s : Bytes} {n : Nat} (h : tagLength? st s = some n) :
    tagLength? st (s.take n) = some n ∧ n ≤ s.length := by
  induction s generalizing st n with
  | nil => exact absurd h (by simp [tagLength?])
  | cons b r ih =>
    rw [tagLength?_cons] at h
    -- either the tag ends with this byte, or in the rest
    split at h
    · rename_i hclosed
      obtain rfl := Option.some.inj h
      exact ⟨by simp [tagLength?_cons, hclosed], Nat.succ_le_succ (Nat.zero_le _)⟩
    · rename_i hclosed
      obtain ⟨m, hm, rfl⟩ := Option.map_eq_some_iff.mp h
      obtain ⟨htake, hle⟩ := ih hm
      exact ⟨by simp [tagLength?_cons, hclosed, htake], Nat.succ_le_succ hle⟩

/-- The tokenizer is through with a tag at the last byte of its raw text, and not before. -/
theorem tagLength?_of_mem_tokensFrom {open? : Option Bytes} {s : Bytes} {t : Token}
    (ht : t ∈ tokensFrom open? s) (htag : t.isTag = true) :
    tagLength? .name (t.raw.drop 1) = some (t.raw.length - 1) := by
  obtain ⟨o, r, n, hnext, -, -, hraw⟩ := exists_next?_of_mem_tokensFrom ht
  have hkind : t.kind = .startTag ∨ t.kind = .selfClosingTag := by simpa [Token.isTag] using htag
  -- only a token of markup is a tag, and its length was told by the states
  have htext : t.kind ≠ .text := by
    intro htext
    simp [htext] at hkind
  obtain ⟨b, r, m, rfl, -, hm, rfl, -⟩ := tag_of_markup? (markup?_of_next? hnext htext) hkind
  obtain ⟨htake, hle⟩ := tagLength?_take hm
  have hlen : ((b :: r).take m).length = m := by rw [List.length_take, Nat.min_eq_left hle]
  rw [hraw]
  show tagLength? .name ((b :: r).take m) = some (((b :: r).take m).length)
  rw [hlen, htake]

/-- **When the two readers of a tag agree**, for every start tag of every document. The tokenizer's
    reading of the tag, which ends with the last byte of its raw text, delimits keys and values;
    these are the names and values of the attributes that the rules see, in the same order, just
    when none of the keys begins with `=`. -/
theorem attributes_delimited_iff (text : Bytes) (t : Token) (ht : t ∈ tokens text)
    (htag : t.isTag = true) :
    tagLength? .name (t.raw.drop 1) = some (t.raw.length - 1) ∧
    ((attributes t.raw).map Attribute.pair = delimited t.raw ↔
      ∀ kv ∈ delimited t.raw, ledByEquals kv = false) :=
  ⟨tagLength?_of_mem_tokensFrom ht htag, attributes_eq_delimited_iff t.raw⟩

/-- A tag with a `>` in a value, an `=` and a `/` in another one, and a quote in a key. -/
def oddTag : Token :=
  ⟨.startTag, Bytes.ofString "<IMG alt = 'x>y'a==b/ \"c>", Bytes.ofString "img"⟩

/-- None of its keys begins with `=`, so the readers agree on it. -/
theorem attributes_delimited_iff_oddTag :
    oddTag ∈ tokens (oddTag.raw ++ Bytes.ofString "text") ∧ oddTag.isTag = true ∧
    delimited oddTag.raw = [(Bytes.ofString "alt", Bytes.ofString "x>y"),
      (Bytes.ofString "a", Bytes.ofString "=b/"), (Bytes.ofString "\"c", [])] ∧
    (attributes oddTag.raw).map Attribute.pair = delimited oddTag.raw :=
  have hmem : oddTag ∈ tokens (oddTag.raw ++ Bytes.ofString "text") := by decide +kernel
  ⟨hmem, rfl, by decide, (attributes_delimited_iff _ oddTag hmem rfl).2.mpr (by decide)⟩

/-- A tag with a stray `=` in front of a quote. -/
def strayTag : Token := ⟨.startTag, Bytes.ofString "<p =\" style=\"x\">", Bytes.ofString "p"⟩

/-- The readers do not always agree: behind a stray `=` the quote opens a value for the attribute
    reader. It passes over an attribute that the tokenizer delimits, and takes the rest of its value
    for a name. -/
theorem attribute_lost_behind_equals :
    tokens strayTag.raw = [strayTag] ∧ strayTag.isTag = true ∧
    delimited strayTag.raw =
      [(Bytes.ofString "=\"", []), (Bytes.ofString "style", Bytes.ofString "x")] ∧
    (attributes strayTag.raw).map Attribute.pair = [(Bytes.ofString "x\"", [])] :=
  ⟨by decide +kernel, rfl, by decide, by decide +kernel⟩

end MarkupLint.Markup
