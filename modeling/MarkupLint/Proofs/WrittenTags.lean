/-
  Reading undoes writing: a tag that was written out of a list of attributes is read back as that
  list.

  A written attribute is its name and value together with what the writer was free to choose: the
  separators in front of it, and around a value the white space and the quotes. `Ahead` says what
  stands behind an attribute: separators, and then a name or the `>`. It is what keeps an attribute
  without a value from looking over the separators to an `=` that belongs to a later one, and a name
  or a value without quotes from running on.
-/
import MarkupLint.Markup.Attribute

namespace MarkupLint.Markup

open Ascii

/-! ## Written tags -/

/-- A value as it is written behind `=`. -/
inductive WrittenValue where
  /-- between two quotes of a kind that it does not hold -/
  | quoted (q : UInt8) (value : Bytes) (isQuote : q = quote ∨ q = apostrophe) (free : q ∉ value)
  /-- as it is; a quote in front would be taken for an opening one -/
  | unquoted (value : Bytes) (nonempty : value ≠ []) (plain : ∀ b ∈ value, isUnquotedByte b = true)
      (front : ∀ b ∈ value.head?, b ≠ quote ∧ b ≠ apostrophe)

namespace WrittenValue

def value : WrittenValue → Bytes
  | quoted _ value _ _ => value
  | unquoted value _ _ _ => value

def isUnquoted : WrittenValue → Bool
  | quoted .. => false
  | unquoted .. => true

def render : WrittenValue → Bytes
  | quoted q value _ _ => q :: (value ++ [q])
  | unquoted value _ _ _ => value

end WrittenValue

/-- An `=` and a value behind it, with white space on both sides of the `=`. -/
structure ValuePart where
  before : Bytes
  after : Bytes
  written : WrittenValue
  before_blank : ∀ b ∈ before, isSpace b = true
  after_blank : ∀ b ∈ after, isSpace b = true

def ValuePart.render (p : ValuePart) : Bytes := p.before ++ equals :: (p.after ++ p.written.render)

/-- An attribute as it is written: separators, the name and, unless it has none, the value. -/
structure WrittenAttribute where
  lead : Bytes
  name : Bytes
  valuePart? : Option ValuePart
  lead_ne_nil : lead ≠ []
  lead_separates : ∀ b ∈ lead, isSeparator b = true
  name_ne_nil : name ≠ []
  name_plain : ∀ b ∈ name, isAttributeByte b = true

namespace WrittenAttribute

def value? (w : WrittenAttribute) : Option Bytes := w.valuePart?.map (·.written.value)

def endsUnquoted (w : WrittenAttribute) : Bool := w.valuePart?.any (·.written.isUnquoted)

/-- What is written behind the name. -/
def valueText (w : WrittenAttribute) : Bytes := (w.valuePart?.map (·.render)).getD []

def render (w : WrittenAttribute) : Bytes := w.lead ++ (w.name ++ w.valueText)

end WrittenAttribute

def renderAll (ws : List WrittenAttribute) : Bytes := ws.flatMap (·.render)

/-- What stands behind a value without quotes, if anything does before the `>`, begins with white
    space: a `/` would belong to the value. -/
def parted (tail : Bytes) : List WrittenAttribute → Bool
  | [] => true
  | w :: ws => (!w.endsUnquoted || (renderAll ws ++ tail).head?.all isSpace) && parted tail ws

/-- A start tag as it is written: the element name, the attributes, and separators before the
    `>`. -/
structure WrittenTag where
  name : Bytes
  attributes : List WrittenAttribute
  tail : Bytes
  name_plain : ∀ b ∈ name, isNameByte b = true
  tail_separates : ∀ b ∈ tail, isSeparator b = true
  parted : parted tail attributes = true

namespace WrittenTag

def render (t : WrittenTag) : Bytes :=
  lessThan :: (t.name ++ (renderAll t.attributes ++ (t.tail ++ [greaterThan])))

/-- What is written of the tag before its `i`-th attribute. -/
def upTo (t : WrittenTag) (i : Nat) : Bytes :=
  lessThan :: (t.name ++ renderAll (t.attributes.take i))

end WrittenTag

/-! ## The reader, case by case -/

section Reader

variable {c d : Cursor} {b : UInt8} {r : Bytes}

/-- A quote in front is taken for an opening one. -/
theorem readValue_of_quote (h : c.rest = b :: r) (hb : b = quote ∨ b = apostrophe) :
    readValue c = (c.skip.span (· != b), (c.skip.past (· != b)).skip) := by
  have hquote : (b = quote || b = apostrophe) = true := by simpa using hb
  simp only [readValue, h, hquote, if_true]

theorem readValue_of_not_quote (h : c.rest = b :: r) (hb : ¬ (b = quote ∨ b = apostrophe)) :
    readValue c = (c.span isUnquotedByte, c.past isUnquotedByte) := by
  have hquote : ¬ (b = quote || b = apostrophe) = true := by simpa using hb
  simp only [readValue, h, if_neg hquote]

/-- An `=` behind the white space has a value behind it. -/
theorem readValuePart_of_equals (h : (c.past isSpace).rest = equals :: r) :
    readValuePart c = (some (readValue ((c.past isSpace).skip.past isSpace)).1,
      (readValue ((c.past isSpace).skip.past isSpace)).2) := by
  simp only [readValuePart, h, if_true]

/-- Without an `=` behind the white space nothing is read, not even the white space. -/
theorem readValuePart_of_not_equals (h : ∀ b ∈ (c.past isSpace).rest.head?, b ≠ equals) :
    readValuePart c = (none, c) := by
  unfold readValuePart
  simp only
  split
  · rename_i b r hb
    rw [if_neg (h b (by simp [hb]))]
  · rfl

/-- A turn reads a name where one begins. -/
theorem turn_of_name (h : (c.past isSeparator).rest = b :: r) (hb : isAttributeByte b = true) :
    turn c = some (some ⟨(c.past isSeparator).span isAttributeByte,
        (readValuePart ((c.past isSeparator).past isAttributeByte)).1,
        (c.past isSeparator).position⟩,
      (readValuePart ((c.past isSeparator).past isAttributeByte)).2) := by
  have hgt : b ≠ greaterThan := by
    rintro rfl
    exact absurd hb (by decide)
  have hname : ((c.past isSeparator).span isAttributeByte).isEmpty = false := by
    simp [Cursor.span, h, hb]
  simp [turn, h, hgt, hname]

/-- The last turn finds nothing but separators. -/
theorem turn_of_end (h : ∀ b ∈ (c.past isSeparator).rest.head?, b = greaterThan) :
    turn c = none := by
  unfold turn
  simp only
  split
  · rfl
  · rename_i b r hb
    rw [if_pos (h b (by simp [hb]))]

/-- The reader goes on turn by turn. -/
theorem attributesFrom_of_turn {x : Option Attribute} (h : turn c = some (x, d)) :
    attributesFrom c = x.toList ++ attributesFrom d := by
  rw [attributesFrom]
  split
  · rename_i hturn
    exact absurd (h.symm.trans hturn) (by simp)
  · rename_i y e hturn
    obtain ⟨rfl, rfl⟩ := Prod.mk.inj (Option.some.inj (h.symm.trans hturn))
    rfl

theorem attributesFrom_of_end (h : turn c = none) : attributesFrom c = [] := by
  rw [attributesFrom]
  split
  · rfl
  · rename_i y e hturn
    exact absurd (h.symm.trans hturn) (by simp)

end Reader

/-! ## Runs -/

variable {n : Nat} {r : Bytes}

/-- A run of bytes is passed over as a whole when what follows it does not go on with it. -/
theorem Cursor.past_run {p : UInt8 → Bool} {run : Bytes} (hrun : ∀ b ∈ run, p b = true)
    (hstop : ∀ b ∈ r.head?, p b = false) :
    Cursor.past p ⟨n, run ++ r⟩ = ⟨n + run.length, r⟩ ∧ Cursor.span p ⟨n, run ++ r⟩ = run := by
  have htake : r.takeWhile p = [] ∧ r.dropWhile p = r := by
    cases r with
    | nil => exact ⟨rfl, rfl⟩
    | cons b r => simp [hstop b rfl]
  rw [Cursor.past, Cursor.span, List.takeWhile_append_of_pos hrun,
    List.dropWhile_append_of_pos hrun, htake.1, htake.2, List.append_nil]
  exact ⟨rfl, rfl⟩

/-- Behind an attribute: separators and then a name, or the `>` with or without separators before
    it. -/
def Ahead (r : Bytes) : Prop :=
  ∃ seps b more, r = seps ++ b :: more ∧ (∀ s ∈ seps, isSeparator s = true) ∧
    (b = greaterThan ∨ seps ≠ [] ∧ isAttributeByte b = true)

/-- No byte of a name is a separator. -/
theorem not_separator_of_attributeByte {b : UInt8} (h : isAttributeByte b = true) :
    isSeparator b = false := by
  simp only [isAttributeByte, Bool.not_eq_true', Bool.or_eq_false_iff, decide_eq_false_iff_not] at h
  simp [isSeparator, h.1.1.1, h.2]

/-- What stands behind an attribute begins with a separator or is the `>`. -/
theorem Ahead.front (h : Ahead r) : ∀ b ∈ r.head?, isSeparator b = true ∨ b = greaterThan := by
  obtain ⟨seps, x, more, rfl, hseps, hx⟩ := h
  intro b hb
  cases seps with
  | nil =>
    obtain rfl : x = b := Option.some.inj hb
    exact .inr (hx.resolve_right fun h => h.1 rfl)
  | cons s seps =>
    obtain rfl : s = b := Option.some.inj hb
    exact .inl (hseps s List.mem_cons_self)

/-- A name ends at what stands behind an attribute. -/
theorem Ahead.not_attributeByte (h : Ahead r) : ∀ b ∈ r.head?, isAttributeByte b = false := by
  intro b hb
  rcases h.front b hb with hsep | rfl
  · simp only [isSeparator, Bool.or_eq_true, decide_eq_true_eq] at hsep
    rcases hsep with hsep | hsep <;> simp [isAttributeByte, hsep]
  · decide

/-- An element name, too, ends there. -/
theorem Ahead.not_nameByte (h : Ahead r) : ∀ b ∈ r.head?, isNameByte b = false := by
  intro b hb
  rcases h.front b hb with hsep | rfl
  · simp only [isSeparator, Bool.or_eq_true, decide_eq_true_eq] at hsep
    rcases hsep with hsep | hsep <;> simp [isNameByte, hsep]
  · decide

/-- Behind the white space that follows an attribute stands no `=`. -/
theorem Ahead.no_equals (h : Ahead r) : ∀ b ∈ (r.dropWhile isSpace).head?, b ≠ equals := by
  obtain ⟨seps, x, more, rfl, hseps, hx⟩ := h
  have hxne : x ≠ equals ∧ isSpace x = false := by
    rcases hx with rfl | ⟨-, hx⟩
    · decide
    · simp only [isAttributeByte, Bool.not_eq_true', Bool.or_eq_false_iff,
        decide_eq_false_iff_not] at hx
      exact ⟨hx.1.1.2, hx.1.1.1⟩
  clear hx
  induction seps with
  | nil => simp [hxne]
  | cons s seps ih =>
    by_cases hs : isSpace s = true
    · simpa [hs] using ih fun b hb => hseps b (List.mem_cons_of_mem s hb)
    · -- the separator is a slash, at which white space ends
      have hslash : s = slash := by simpa [isSeparator, hs] using hseps s List.mem_cons_self
      subst hslash
      simp [hs]
      decide

/-- Whatever follows an attribute of a written tag is such. -/
theorem ahead_renderAll {tail : Bytes} (htail : ∀ b ∈ tail, isSeparator b = true)
    (ws : List WrittenAttribute) : Ahead (renderAll ws ++ (tail ++ [greaterThan])) := by
  cases ws with
  | nil => exact ⟨tail, greaterThan, [], rfl, htail, .inl rfl⟩
  | cons w ws =>
    obtain ⟨b, name, hname⟩ := List.exists_cons_of_ne_nil w.name_ne_nil
    refine ⟨w.lead, b, name ++ (w.valueText ++ (renderAll ws ++ (tail ++ [greaterThan]))), ?_,
      w.lead_separates, .inr ⟨w.lead_ne_nil, ?_⟩⟩
    · simp [renderAll, WrittenAttribute.render, hname]
    · exact w.name_plain b (hname ▸ List.mem_cons_self)

/-! ## The reader on what was written -/

/-- A written value does not begin with white space. -/
theorem WrittenValue.not_space_front (v : WrittenValue) :
    ∀ b ∈ (v.render ++ r).head?, isSpace b = false := by
  cases v with
  | quoted q value isQuote free =>
    intro b hb
    obtain rfl : q = b := Option.some.inj hb
    rcases isQuote with rfl | rfl <;> decide
  | unquoted value nonempty plain front =>
    obtain ⟨x, value, rfl⟩ := List.exists_cons_of_ne_nil nonempty
    intro b hb
    obtain rfl : x = b := Option.some.inj hb
    have hx := plain x List.mem_cons_self
    simp only [isUnquotedByte, Bool.not_eq_true', Bool.or_eq_false_iff] at hx
    exact hx.1

/-- **A written value is read back**, and nothing of what follows it. -/
theorem readValue_render (v : WrittenValue)
    (hstop : v.isUnquoted = true → ∀ b ∈ r.head?, isUnquotedByte b = false) :
    readValue ⟨n, v.render ++ r⟩ = (v.value, ⟨n + v.render.length, r⟩) := by
  cases v with
  | quoted q value isQuote free =>
    -- the value does not hold its own quote, so it goes up to the closing one
    have hrun : ∀ b ∈ value, (b != q) = true := fun b hb => by
      simpa using fun heq : b = q => free (heq ▸ hb)
    have hclose : ∀ b ∈ (q :: r).head?, (b != q) = false := by simp
    obtain ⟨hpast, hspan⟩ := Cursor.past_run (n := n + 1) hrun hclose
    have hrest : WrittenValue.render (.quoted q value isQuote free) ++ r =
        q :: (value ++ q :: r) := by
      simp [WrittenValue.render]
    have hskip : Cursor.skip ⟨n, q :: (value ++ q :: r)⟩ = ⟨n + 1, value ++ q :: r⟩ := by
      simp [Cursor.skip]
    rw [hrest, readValue_of_quote rfl isQuote, hskip, hpast, hspan]
    simp [Cursor.skip, WrittenValue.value, WrittenValue.render]
    omega
  | unquoted value nonempty plain front =>
    obtain ⟨hpast, hspan⟩ := Cursor.past_run (n := n) plain (hstop rfl)
    obtain ⟨x, rest, rfl⟩ := List.exists_cons_of_ne_nil nonempty
    have hfront : ¬ (x = quote ∨ x = apostrophe) := not_or.mpr (front x rfl)
    show readValue ⟨n, (x :: rest) ++ r⟩ = (x :: rest, ⟨n + (x :: rest).length, r⟩)
    rw [readValue_of_not_quote rfl hfront, hpast, hspan]

/-- An `=` with a value is read back, whatever white space is around it. -/
theorem readValuePart_render (p : ValuePart)
    (hstop : p.written.isUnquoted = true → ∀ b ∈ r.head?, isUnquotedByte b = false) :
    readValuePart ⟨n, p.render ++ r⟩ = (some p.written.value, ⟨n + p.render.length, r⟩) := by
  have hrest : p.render ++ r = p.before ++ equals :: (p.after ++ (p.written.render ++ r)) := by
    simp [ValuePart.render]
  have hequals : ∀ b ∈ (equals :: (p.after ++ (p.written.render ++ r))).head?,
      isSpace b = false := by
    intro b hb
    obtain rfl : equals = b := Option.some.inj hb
    decide
  obtain ⟨hbefore, -⟩ := Cursor.past_run (n := n) p.before_blank hequals
  obtain ⟨hafter, -⟩ := Cursor.past_run (n := n + p.before.length + 1) p.after_blank
    (p.written.not_space_front (r := r))
  have hskip : Cursor.skip ⟨n + p.before.length, equals :: (p.after ++ (p.written.render ++ r))⟩ =
      ⟨n + p.before.length + 1, p.after ++ (p.written.render ++ r)⟩ := by
    simp [Cursor.skip]
  have hpart := readValuePart_of_equals (c := ⟨n, p.render ++ r⟩)
    (r := p.after ++ (p.written.render ++ r)) (by rw [hrest, hbefore])
  rw [hpart, hrest, hbefore, hskip, hafter, readValue_render p.written hstop]
  simp [ValuePart.render]
  omega

/-- A name ends at its value part. -/
theorem ValuePart.not_attributeByte_front (p : ValuePart) :
    ∀ b ∈ (p.render ++ r).head?, isAttributeByte b = false := by
  intro b hb
  cases hbefore : p.before with
  | nil =>
    obtain rfl : equals = b := by simpa [ValuePart.render, hbefore] using hb
    decide
  | cons s before =>
    obtain rfl : s = b := by simpa [ValuePart.render, hbefore] using hb
    have hs := p.before_blank s (hbefore ▸ List.mem_cons_self)
    simp [isAttributeByte, hs]

/-- Behind a name its value part is read, or nothing where none was written. -/
theorem readValuePart_valueText (w : WrittenAttribute) (hahead : Ahead r)
    (hstop : w.endsUnquoted = true → ∀ b ∈ r.head?, isUnquotedByte b = false) :
    (∀ b ∈ (w.valueText ++ r).head?, isAttributeByte b = false) ∧
    readValuePart ⟨n, w.valueText ++ r⟩ = (w.value?, ⟨n + w.valueText.length, r⟩) := by
  unfold WrittenAttribute.valueText WrittenAttribute.value? WrittenAttribute.endsUnquoted at *
  cases hpart : w.valuePart? with
  | none => exact ⟨hahead.not_attributeByte, readValuePart_of_not_equals hahead.no_equals⟩
  | some p =>
    rw [hpart] at hstop
    exact ⟨p.not_attributeByte_front, readValuePart_render p hstop⟩

/-- **What one turn reads**: the attribute that was written, no more and no less. -/
theorem turn_render (w : WrittenAttribute) (hahead : Ahead r)
    (hstop : w.endsUnquoted = true → ∀ b ∈ r.head?, isUnquotedByte b = false) :
    turn ⟨n, w.render ++ r⟩ =
      some (some ⟨w.name, w.value?, n + w.lead.length⟩, ⟨n + w.render.length, r⟩) := by
  obtain ⟨b, name, hname⟩ := List.exists_cons_of_ne_nil w.name_ne_nil
  have hb : isAttributeByte b = true := w.name_plain b (hname ▸ List.mem_cons_self)
  have hrest : w.render ++ r = w.lead ++ (w.name ++ (w.valueText ++ r)) := by
    simp [WrittenAttribute.render]
  have hfront : ∀ x ∈ (w.name ++ (w.valueText ++ r)).head?, isSeparator x = false := by
    intro x hx
    obtain rfl : b = x := by simpa [hname] using hx
    exact not_separator_of_attributeByte hb
  obtain ⟨hbehind, hvalue⟩ :=
    readValuePart_valueText (n := n + w.lead.length + w.name.length) w hahead hstop
  -- separators, name and value part are passed over in turn
  obtain ⟨hlead, -⟩ := Cursor.past_run (n := n) w.lead_separates hfront
  obtain ⟨hover, hspan⟩ := Cursor.past_run (n := n + w.lead.length) w.name_plain hbehind
  have hturn := turn_of_name (c := ⟨n, w.render ++ r⟩) (b := b) (r := name ++ (w.valueText ++ r))
    (by rw [hrest, hlead, hname]; rfl) hb
  rw [hturn, hrest, hlead, hover, hspan, hvalue]
  simp [WrittenAttribute.render, Nat.add_assoc]

/-- **What the reader reads from a cursor on**: the attributes that were written, each at the place
    of its name. The induction is on the written attributes, one turn for each. -/
theorem attributesFrom_render {tail : Bytes} (htail : ∀ b ∈ tail, isSeparator b = true)
    (ws : List WrittenAttribute) (hparted : parted tail ws = true) :
    attributesFrom ⟨n, renderAll ws ++ (tail ++ [greaterThan])⟩ =
      ws.mapIdx fun i w => ⟨w.name, w.value?, n + (renderAll (ws.take i) ++ w.lead).length⟩ := by
  induction ws generalizing n with
  | nil =>
    refine attributesFrom_of_end (turn_of_end fun b hb => ?_)
    have hstop : ∀ b ∈ [greaterThan].head?, isSeparator b = false := by
      intro b hb
      rw [← Option.some.inj hb]
      decide
    rw [renderAll, List.flatMap_nil, List.nil_append, (Cursor.past_run htail hstop).1] at hb
    exact (Option.some.inj hb).symm
  | cons w ws ih =>
    rw [parted, Bool.and_eq_true] at hparted
    -- a value without quotes ends at white space or at the `>`
    have hstop : w.endsUnquoted = true →
        ∀ b ∈ (renderAll ws ++ (tail ++ [greaterThan])).head?, isUnquotedByte b = false := by
      intro hw b hb
      have hspace : (renderAll ws ++ tail).head?.all isSpace = true := by simpa [hw] using hparted.1
      rw [← List.append_assoc] at hb
      cases hfollow : renderAll ws ++ tail with
      | nil =>
        obtain rfl : greaterThan = b := by simpa [hfollow] using hb
        decide
      | cons s rest =>
        obtain rfl : s = b := by simpa [hfollow] using hb
        have hs : isSpace s = true := by simpa [hfollow] using hspace
        simp [isUnquotedByte, hs]
    have hturn := turn_render (n := n) w (ahead_renderAll htail ws) hstop
    have hcons : renderAll (w :: ws) ++ (tail ++ [greaterThan]) =
        w.render ++ (renderAll ws ++ (tail ++ [greaterThan])) := by
      simp [renderAll]
    rw [hcons, attributesFrom_of_turn hturn, ih hparted.2, List.mapIdx_cons]
    simp [renderAll, Nat.add_assoc]

/-- **Reading undoes writing.** Of a written tag, whatever separators, white space and quotes its
    writer chose, exactly the attributes are read that were written, in their order: each with its
    name, its value if it has one, and as its offset the number of bytes written before its name,
    counted from `base` on as a 64-bit number. -/
theorem attributes_render (t : WrittenTag) (base : Int) :
    (attributes t.render).map (fun a => (a.name, a.value, a.offsetFrom base)) =
      t.attributes.mapIdx fun i w =>
        (w.name, w.value?, wrap64 (base + (t.upTo i ++ w.lead).length)) := by
  have hstop := (ahead_renderAll t.tail_separates t.attributes).not_nameByte
  obtain ⟨hpast, -⟩ := Cursor.past_run (n := 1) t.name_plain hstop
  rw [attributes, WrittenTag.render, List.drop_succ_cons, List.drop_zero, hpast,
    attributesFrom_render t.tail_separates t.attributes t.parted]
  refine (List.mapIdx_eq_iff.mpr fun i => ?_).symm
  have hplace : ∀ w : WrittenAttribute,
      1 + t.name.length + (renderAll (t.attributes.take i) ++ w.lead).length =
        (t.upTo i ++ w.lead).length := by
    intro w
    simp [WrittenTag.upTo]
    omega
  rw [List.getElem?_map, List.getElem?_mapIdx]
  simp only [hplace, Option.map_map]
  rfl

/-- An attribute with one space in front of it. -/
def spaced (name : Bytes) (valuePart? : Option ValuePart) (hne : name ≠ [])
    (hplain : name.all isAttributeByte = true) : WrittenAttribute where
  lead := [32]
  name := name
  valuePart? := valuePart?
  lead_ne_nil := List.cons_ne_nil _ _
  lead_separates := List.all_eq_true.mp rfl
  name_ne_nil := hne
  name_plain := List.all_eq_true.mp hplain

/-- `<input type=text disabled value='a b' data-x = "1"/>`, piece by piece. -/
def inputTag : WrittenTag where
  name := Bytes.ofString "input"
  attributes := [
    spaced (Bytes.ofString "type") (some {
      before := [], after := []
      written := .unquoted (Bytes.ofString "text") (by decide) (List.all_eq_true.mp (by decide))
        (fun b hb => by obtain rfl : 116 = b := Option.some.inj hb; decide)
      before_blank := nofun, after_blank := nofun }) (by decide) (by decide),
    spaced (Bytes.ofString "disabled") none (by decide) (by decide),
    spaced (Bytes.ofString "value") (some {
      before := [], after := []
      written := .quoted apostrophe (Bytes.ofString "a b") (.inr rfl) (by decide)
      before_blank := nofun, after_blank := nofun }) (by decide) (by decide),
    spaced (Bytes.ofString "data-x") (some {
      before := [32], after := [32]
      written := .quoted quote (Bytes.ofString "1") (.inl rfl) (by decide)
      before_blank := List.all_eq_true.mp rfl, after_blank := List.all_eq_true.mp rfl })
      (by decide) (by decide)]
  tail := [slash]
  name_plain := List.all_eq_true.mp (by decide)
  tail_separates := List.all_eq_true.mp rfl
  parted := by decide

/-- All four kinds of attributes, and a slash at the end. -/
theorem attributes_render_inputTag :
    inputTag.render = Bytes.ofString "<input type=text disabled value='a b' data-x = \"1\"/>" ∧
    (attributes inputTag.render).map (fun a => (a.name, a.value, a.offsetFrom 10)) =
      [(Bytes.ofString "type", some (Bytes.ofString "text"), 17),
       (Bytes.ofString "disabled", none, 27),
       (Bytes.ofString "value", some (Bytes.ofString "a b"), 36),
       (Bytes.ofString "data-x", some (Bytes.ofString "1"), 48)] :=
  ⟨by decide, (attributes_render inputTag 10).trans (by decide)⟩

end MarkupLint.Markup
