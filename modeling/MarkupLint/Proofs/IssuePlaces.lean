/-
  Every issue lies inside the document: its line is one of the lines of the text, and its column is
  not behind the last character of that line.

  Issues get their places in three ways: from the offset of a tag, from the offset of an attribute,
  and from the spaces in front of a line. The first byte of a tag is ASCII. That of an attribute
  need not be, but the byte before it is: a separator, or the quote that ends the value before it
  (`Cursor.Parted`).
-/
import MarkupLint.Proofs.MarkupOffsets
import MarkupLint.Proofs.Places
import MarkupLint.Proofs.RuleReports

namespace MarkupLint.Markup

open Ascii

/-! ## What stands before an attribute -/

/-- Separators are ASCII. -/
theorem ascii_of_isSeparator {b : UInt8} (h : isSeparator b = true) : b < 0x80 := by
  simp only [isSeparator, isSpace, Bool.or_eq_true, decide_eq_true_eq, or_assoc] at h
  rcases h with rfl | rfl | rfl | rfl | rfl | rfl <;> decide

/-- A byte at which a name or an unquoted value ends separates, or ends the tag. -/
def EndsRun (b : UInt8) : Prop := isSeparator b = true ∨ b = greaterThan

theorem endsRun_of_not_name {b : UInt8} (h : isNameByte b = false) : EndsRun b := by
  simp only [isNameByte, Bool.not_eq_false', Bool.or_eq_true, decide_eq_true_eq] at h
  rcases h with (h | h) | h
  · exact .inl (by simp [isSeparator, h])
  · exact .inl (by simp [isSeparator, h])
  · exact .inr h

theorem endsRun_of_not_unquoted {b : UInt8} (h : isUnquotedByte b = false) : EndsRun b := by
  simp only [isUnquotedByte, Bool.not_eq_false', Bool.or_eq_true, decide_eq_true_eq] at h
  rcases h with h | h
  · exact .inl (by simp [isSeparator, h])
  · exact .inr h

/-- The name of an attribute may also end at the `=` before its value. -/
theorem endsRun_of_not_attribute {b : UInt8} (h : isAttributeByte b = false) (hne : b ≠ equals) :
    EndsRun b := by
  simp only [isAttributeByte, Bool.not_eq_false', Bool.or_eq_true, decide_eq_true_eq] at h
  rcases h with ((h | h) | h) | h
  · exact .inl (by simp [isSeparator, h])
  · exact absurd h hne
  · exact .inr h
  · exact .inl (by simp [isSeparator, h])

namespace Cursor

variable {raw : Bytes} {c d : Cursor}

/-- The byte before the cursor is ASCII. -/
def BehindAscii (raw : Bytes) (c : Cursor) : Prop :=
  0 < c.position ∧ ∃ a, a < 0x80 ∧ raw[c.position - 1]? = some a

/-- What the cursor stands before begins with a byte that separates or ends the tag, unless the byte
    before the cursor is ASCII. -/
def Parted (raw : Bytes) (c : Cursor) : Prop :=
  ∀ b r, c.rest = b :: r → EndsRun b ∨ c.BehindAscii raw

/-- Where a run has ended, what follows is set off by the byte that ended it. -/
theorem parted_past {p : UInt8 → Bool} (hp : ∀ b, p b = false → EndsRun b) :
    (c.past p).Parted raw :=
  fun b _ hb => .inl (hp b (not_of_past hb))

/-- Behind a byte that was skipped stands that byte. -/
theorem behindAscii_skip {b : UInt8} {r : Bytes} (hc : c.In raw) (hb : c.rest = b :: r)
    (ha : b < 0x80) : c.skip.BehindAscii raw := by
  have hpos : c.skip.position = c.position + 1 := by simp [skip, hb]
  refine ⟨by omega, b, ha, ?_⟩
  rw [hpos, Nat.add_sub_cancel]
  exact hc.getElem? hb

/-- Behind separators stands a separator. -/
theorem behindAscii_past (hc : c.In raw) (hparted : c.Parted raw) {b : UInt8} {r : Bytes}
    (hb : (c.past isSeparator).rest = b :: r) (hgt : b ≠ greaterThan) :
    (c.past isSeparator).BehindAscii raw := by
  have hsep : isSeparator b = false := not_of_past hb
  have hspan := rest_eq_span_append isSeparator c
  cases hn : c.span isSeparator with
  | nil =>
    -- no separators are passed over: the byte is the first one at the cursor
    rw [hn, List.nil_append, hb] at hspan
    have hstay : (c.past isSeparator).position = c.position := by
      show c.position + (c.span isSeparator).length = c.position
      rw [hn]
      rfl
    rcases hparted b r hspan with (hends | hends) | hbehind
    · exact absurd hends (by simp [hsep])
    · exact absurd hends hgt
    · rw [BehindAscii, hstay]
      exact hbehind
  -- the last of the separators stands before the byte
  | cons x xs =>
    have hlen : (c.past isSeparator).position = c.position + (c.span isSeparator).length := rfl
    have hpos : 0 < (c.span isSeparator).length := by rw [hn]; exact Nat.zero_lt_succ _
    obtain ⟨a, ha⟩ : ∃ a, (c.span isSeparator)[(c.span isSeparator).length - 1]? = some a :=
      ⟨_, List.getElem?_eq_getElem (by omega)⟩
    have hmem : a ∈ c.span isSeparator := List.mem_of_getElem? ha
    have hascii : isSeparator a = true := List.all_eq_true.mp List.all_takeWhile a hmem
    refine ⟨by omega, a, ascii_of_isSeparator hascii, ?_⟩
    have hbyte : c.rest[(c.span isSeparator).length - 1]? = some a := by
      rw [hspan, List.getElem?_append_left (by omega)]
      exact ha
    rw [hc, List.getElem?_drop] at hbyte
    rw [hlen, Nat.add_sub_assoc hpos]
    exact hbyte

end Cursor

section Reader

variable {raw : Bytes} {c d : Cursor} {a : Attribute}

/-- Behind a value stands its closing quote, or a byte that ended it. -/
theorem parted_readValue (hc : c.In raw) : (readValue c).2.Parted raw := by
  unfold readValue
  split
  · split
    · rename_i b r hb hquote
      show (c.skip.past (· != b)).skip.Parted raw
      have hin : (c.skip.past (· != b)).In raw :=
        (c.reaches_skip.trans (Cursor.reaches_past _ _)).in hc
      intro x s hx
      -- something follows, so the quote is closed
      cases hq : (c.skip.past (· != b)).rest with
      | nil =>
        rw [Cursor.skip, hq] at hx
        exact absurd hx (by simp)
      | cons q t =>
        have hqb : q = b := by simpa using Cursor.not_of_past hq
        have hascii : q < 0x80 := by
          simp only [Bool.or_eq_true, decide_eq_true_eq] at hquote
          rw [hqb]
          rcases hquote with rfl | rfl <;> decide
        exact .inr (Cursor.behindAscii_skip hin hq hascii)
    · exact Cursor.parted_past fun _ => endsRun_of_not_unquoted
  · intro b r hb
    rename_i hnil
    rw [hnil] at hb
    exact absurd hb (by simp)

/-- Behind a name with or without a value the next attribute is set off. -/
theorem parted_readValuePart (hc : c.In raw) :
    (readValuePart (c.past isAttributeByte)).2.Parted raw := by
  have hin : (c.past isAttributeByte).In raw := (Cursor.reaches_past _ _).in hc
  -- without an `=` the cursor stays, and there the name has ended
  have hstays : (∀ r, ((c.past isAttributeByte).past isSpace).rest ≠ equals :: r) →
      (c.past isAttributeByte).Parted raw := by
    intro hno b r hb
    refine .inl (endsRun_of_not_attribute (Cursor.not_of_past hb) fun heq => hno r ?_)
    have hspace : isSpace equals = false := by decide
    show (c.past isAttributeByte).rest.dropWhile isSpace = equals :: r
    simp [hb, heq, hspace]
  unfold readValuePart
  simp only
  split
  · rename_i b r hb
    split
    · exact parted_readValue ((((Cursor.reaches_past isSpace _).trans (Cursor.reaches_skip _)).trans
        (Cursor.reaches_past _ _)).in hin)
    · rename_i hne
      refine hstays fun s hs => hne ?_
      rw [hb] at hs
      exact (List.cons.inj hs).1
  · rename_i hnil
    refine hstays fun s hs => ?_
    rw [hnil] at hs
    exact absurd hs nofun

/-- Before the attribute stands an ASCII byte, and the attribute does not begin with white space. -/
structure Attribute.SetOff (raw : Bytes) (a : Attribute) : Prop where
  pos : 0 < a.offset
  before : ∃ b, b < 0x80 ∧ raw[a.offset - 1]? = some b
  first : ∃ b, isAttributeByte b = true ∧ raw[a.offset]? = some b

/-- A turn that starts set off reads an attribute that is. -/
theorem setOff_of_turn (h : turn c = some (some a, d)) (hc : c.In raw) (hparted : c.Parted raw) :
    a.SetOff raw := by
  obtain ⟨b, r, hb, hgt, -, hread⟩ := turn_eq_some h
  obtain ⟨hoffset, hne, hname, -⟩ := hread a rfl
  obtain ⟨hpos, hbefore⟩ := Cursor.behindAscii_past hc hparted hb hgt
  rw [← hoffset] at hpos hbefore
  refine ⟨hpos, hbefore, b, ?_, ?_⟩
  · by_cases hbyte : isAttributeByte b = true
    · exact hbyte
    · refine absurd ?_ hne
      rw [hname, Cursor.span, hb, List.takeWhile_cons_of_neg hbyte]
  · have hin : (c.past isSeparator).In raw := (c.reaches_past _).in hc
    rw [hoffset]
    exact hin.getElem? hb

/-- **What one turn preserves**: the next one starts set off again. -/
theorem parted_of_turn {x : Option Attribute} (h : turn c = some (x, d)) (hc : c.In raw) :
    d.Parted raw := by
  obtain ⟨b, r, -, -, rfl, -⟩ := turn_eq_some h
  exact parted_readValuePart ((c.reaches_past _).in hc)

/-- All attributes that are read from there on are set off. The induction is on the turns. -/
theorem setOff_of_mem_attributesFrom (hc : c.In raw) (hparted : c.Parted raw)
    (ha : a ∈ attributesFrom c) : a.SetOff raw := by
  fun_induction attributesFrom c with
  | case1 c hturn => exact absurd ha List.not_mem_nil
  | case2 c x d hturn ih =>
    rcases List.mem_append.mp ha with hx | hrest
    · obtain rfl : x = some a := Option.mem_toList.mp hx
      exact setOff_of_turn hturn hc hparted
    · exact ih ((reaches_turn hturn).in hc) (parted_of_turn hturn hc) hrest

/-- Every attribute of a tag is set off from what stands before it. -/
theorem setOff_of_mem_attributes (ha : a ∈ attributes raw) : a.SetOff raw :=
  setOff_of_mem_attributesFrom (in_afterName raw isNameByte)
    (Cursor.parted_past fun _ => endsRun_of_not_name) ha

end Reader

/-! ## Places of tags and attributes -/

/-- The place of an offset is on a line of the text, before its end. -/
def InsideAt (text : Bytes) (offset : Nat) : Prop :=
  ∃ line,
    (Bytes.splitAt Bytes.newline text)[((Source.ofText text).place offset).line]? = some line ∧
    ((Source.ofText text).place offset).column < Utf8.units16 line

section Tags

variable {text raw : Bytes} {t : Tag}

/-- Bytes of the piece that a tag was read from are bytes of the text. -/
theorem Tag.ReadFrom.getElem? (h : t.ReadFrom text raw) {i : Nat} {b : UInt8}
    (hb : raw[i]? = some b) : text[t.offset + i]? = some b := by
  obtain ⟨r, hr⟩ := h.piece
  rw [← List.getElem?_drop, ← hr, List.getElem?_append_left (List.getElem?_eq_some_iff.mp hb).1]
  exact hb

/-- A tag begins with an ASCII byte, so its place is on its line. -/
theorem insideAt_tag (h : t.ReadFrom text raw) : InsideAt text t.offset :=
  Source.place_inside h.standsIn.opens (by decide) (.inl (by decide))

/-- Before an attribute stands an ASCII byte. -/
theorem attribute_behind_ascii {a : Attribute} (h : t.ReadFrom text raw) (ha : a ∈ t.attributes) :
    0 < t.offsetOf a ∧ ∃ q, q < 0x80 ∧ text[t.offsetOf a - 1]? = some q := by
  obtain ⟨hpos, ⟨q, hq, hbefore⟩, -⟩ := setOff_of_mem_attributes (h.attributes_eq ▸ ha)
  have htext := h.getElem? hbefore
  rw [← Nat.add_sub_assoc hpos] at htext
  exact ⟨Nat.lt_of_lt_of_le hpos (Nat.le_add_left _ _), q, hq, htext⟩

/-- An attribute begins behind an ASCII byte, so its place is on its line too, whatever byte it
    begins with. -/
theorem insideAt_attribute {a : Attribute} (h : t.ReadFrom text raw) (ha : a ∈ t.attributes) :
    InsideAt text (t.offsetOf a) := by
  obtain ⟨-, -, b, hb, hfirst⟩ := setOff_of_mem_attributes (h.attributes_eq ▸ ha)
  obtain ⟨hpos, q, hq, hbefore⟩ := attribute_behind_ascii h ha
  -- no attribute begins with the end of a line
  have hnewline : b ≠ Bytes.newline := by
    rintro rfl
    exact absurd hb (by decide)
  exact Source.place_inside (h.getElem? hfirst) hnewline (.inr ⟨q, hq, hbefore, hpos⟩)

end Tags
end MarkupLint.Markup

namespace MarkupLint

/-- The issue stands on a line of the text, and before the end of that line. -/
structure Issue.Inside (text : Bytes) (i : Issue) : Prop where
  line_nonneg : 0 ≤ i.line
  line_lt : i.line < (Bytes.splitAt Bytes.newline text).length
  column_nonneg : 0 ≤ i.column
  column_lt : ∃ line, (Bytes.splitAt Bytes.newline text)[i.line.toNat]? = some line ∧
    i.column < Utf8.units16 line

namespace Rule

open Markup

variable {text : Bytes} {o : Options} {i : Issue} {offset : Nat}

/-- An issue with the coordinates of a place in the text lies inside. -/
theorem inside_of_nat {n m : Nat} {line : Bytes} (hn : i.line = n) (hm : i.column = m)
    (hline : (Bytes.splitAt Bytes.newline text)[n]? = some line) (hlt : m < Utf8.units16 line) :
    i.Inside text := by
  have hn' := (List.getElem?_eq_some_iff.mp hline).1
  refine ⟨by omega, by omega, by omega, line, ?_, by omega⟩
  rw [hn, Int.toNat_natCast]
  exact hline

/-! ## Issues on tags -/

/-- What is reported at an offset lies where the offset does. -/
theorem Reports.inside {r : RuleName} (h : Reports r (.ofText text) offset i)
    (hin : InsideAt text offset) : i.Inside text := by
  obtain ⟨data, rfl⟩ := h
  obtain ⟨line, hline, hlt⟩ := hin
  exact inside_of_nat rfl rfl hline hlt

/-- The offsets of issues on tags are those of tags and of attributes. -/
theorem inside_of_mem_checkTags {T : Tokenizer} {ids : List Bytes}
    (h : i ∈ checkTags (.ofText text) o ids (T.outline (.ofText text)).tags) : i.Inside text := by
  obtain ⟨t, ht, r, -, hreports⟩ := reports_of_mem_checkTags h
  obtain ⟨raw, hread⟩ := (outline_in_order T text).1 t ht
  rcases hreports with hreports | ⟨a, ha, hreports⟩
  · exact hreports.inside (insideAt_tag hread)
  · exact hreports.inside (insideAt_attribute hread ha)

/-! ## Issues on lines -/

/-- A line that is not blank goes on behind the spaces in front of it. -/
theorem indentOf_lt_units16 {line : Bytes} (h : Blank.isBlankLine line = false) :
    indentOf line < Utf8.units16 line := by
  induction line with
  | nil => exact absurd h (by decide)
  | cons b r ih =>
    by_cases hb : b = 32
    · subst hb
      have hchars := Utf8.chars_cons_ascii (a := 32) (by decide) r
      have hblank : Blank.isBlank (Char.ofNat (32 : UInt8).toNat) = true := by decide
      have hwidth : Utf8.width16 (Char.ofNat (32 : UInt8).toNat) = 1 := by decide
      have hrest : Blank.isBlankLine r = false := by
        rw [Blank.isBlankLine, hchars, List.all_cons, hblank, Bool.true_and] at h
        exact h
      have hlt := ih hrest
      have hunits : Utf8.units16 (32 :: r) = 1 + Utf8.units16 r := by
        rw [Utf8.units16, hchars, Utf8.totalWidth16, hwidth]
        rfl
      have hindent : indentOf (32 :: r) = indentOf r + 1 := by simp [indentOf]
      omega
    · have hnone : indentOf (b :: r) = 0 := by simp [indentOf, hb]
      rw [hnone]
      exact Utf8.units16_pos (List.cons_ne_nil b r)

/-- An issue on a line stands behind its indentation. -/
theorem inside_of_mem_checkLines {verbatim : List Nat}
    (h : i ∈ checkLines o verbatim 0 (Bytes.splitAt Bytes.newline text)) : i.Inside text := by
  obtain ⟨k, line, hline, hi⟩ := mem_checkLines_iff.mp h
  obtain ⟨⟨-, hblank, -⟩, rfl⟩ := mem_checkIndent_iff.mp hi
  rw [Nat.zero_add]
  exact inside_of_nat rfl rfl hline (indentOf_lt_units16 hblank)

/-! ## Documents -/

/-- **Every issue lies inside the document.** Linting a text with options that are in order,
    whatever bytes the text has, gives issues on lines of the text and before the ends of these
    lines. -/
theorem issues_inside (T : Tokenizer) (config : Config) (o : Options) (text : Bytes)
    (h : Options.ofConfig config = .ok o) :
    ∃ issues, T.lint config text false = .ok issues ∧ ∀ i ∈ issues, i.Inside text := by
  refine ⟨T.check o text, lint_eq_check h text, fun i hi => ?_⟩
  rcases mem_check_iff.mp hi with ⟨-, hline⟩ | htag
  · exact inside_of_mem_checkLines hline
  · exact inside_of_mem_checkTags htag

/-- A byte that is no UTF-8, a tag, and on the next line two attributes, the first one such a byte
    again. -/
def undecodable : Bytes := [0xC3] ++ Bytes.ofString "<p\n" ++ [0xA9] ++ Bytes.ofString " style>"

/-- Columns count characters, also where bytes are none. -/
theorem issues_inside_undecodable :
    ∃ issues, lint [] undecodable false = .ok issues ∧
      (∃ i ∈ issues, i.code = "E002" ∧ i.line = 1 ∧ i.column = 0) ∧
      (∃ i ∈ issues, i.code = "E001" ∧ i.line = 1 ∧ i.column = 2) ∧
      ∀ i ∈ issues, i.Inside undecodable := by
  obtain ⟨issues, hlint, hinside⟩ := issues_inside .html [] unconfigured undecodable ofConfig_nil
  obtain rfl :=
    Except.ok.inj ((lint_eq_check (T := .html) ofConfig_nil undecodable).symm.trans hlint)
  exact ⟨_, hlint, exists_check_of_tags (by decide +kernel),
    exists_check_of_tags (by decide +kernel), hinside⟩

end Rule
end MarkupLint
