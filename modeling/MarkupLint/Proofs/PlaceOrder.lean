/-
  Places and offsets. `place_of_offset` says what the place of an offset is, for any bytes: the line
  is the one that the offset lies on, and the column is the number of UTF-16 code units of what
  stands before it there.

  Offsets further on have places further on, if nothing is cut in two at the first of them
  (`place_before`). This is so between the characters of a text in UTF-8, and in any text next to
  ASCII bytes. So issues come in the order of the tags, attributes and indents that they are about
  (`Mark`).
-/
import Mathlib.Algebra.GroupWithZero.Nat
import MarkupLint.Proofs.GuardedPlaces
import MarkupLint.Proofs.IssuePlaces
import MarkupLint.Proofs.RuleIndependence
import MarkupLint.Proofs.Utf8Reading

namespace MarkupLint

namespace Markup

open Bytes

variable {text : Bytes} {ls : List Bytes} {k m x y offset : Nat}

/-! ## The place of an offset -/

/-- Where line `k` starts: behind the lines before it and their newlines. -/
def startOf (ls : List Bytes) (k : Nat) : Nat := ((ls.take k).map fun l => l.length + 1).sum

/-- The offset lies on line `k` or on the newline behind it. -/
def LiesOn (ls : List Bytes) (k offset : Nat) : Prop :=
  ∃ l, ls[k]? = some l ∧ startOf ls k ≤ offset ∧ offset ≤ startOf ls k + l.length

/-- The next line starts behind this one and its newline. -/
theorem startOf_succ {l : Bytes} (h : ls[k]? = some l) :
    startOf ls (k + 1) = startOf ls k + l.length + 1 := by
  rw [startOf, startOf, List.take_add_one, h, Option.toList_some, List.map_append, List.sum_append]
  simp [Nat.add_assoc]

theorem startOf_lt {l : Bytes} (h : ls[k]? = some l) (hkm : k < m) :
    startOf ls k + l.length < startOf ls m := by
  induction m with
  | zero => omega
  | succ m ih =>
    -- the lines in between only push the start further on
    rcases Nat.lt_or_eq_of_le (Nat.le_of_lt_succ hkm) with hlt | rfl
    · have hle : startOf ls m ≤ startOf ls (m + 1) := by
        rw [startOf, startOf, List.take_add_one, List.map_append, List.sum_append]
        exact Nat.le_add_right _ _
      have := ih hlt
      omega
    · rw [startOf_succ h]
      omega

/-- An offset lies on one line only. -/
theorem LiesOn.unique (hk : LiesOn ls k offset) (hm : LiesOn ls m offset) : k = m := by
  obtain ⟨l, hl, hkle, hkge⟩ := hk
  obtain ⟨l', hl', hmle, hmge⟩ := hm
  rcases Nat.lt_trichotomy k m with hlt | heq | hgt
  · have := startOf_lt hl hlt
    omega
  · exact heq
  · have := startOf_lt hl' hgt
    omega

/-- The table of starts holds where each line starts. -/
theorem getElem?_startsFrom {base : Nat} {l : Bytes} (h : ls[k]? = some l) :
    (startsFrom base ls)[k]? = some (base + startOf ls k) := by
  induction ls generalizing base k with
  | nil => exact absurd h (by simp)
  | cons m ls ih =>
    cases k with
    | zero => rfl
    | succ k =>
      have hstart : startOf (m :: ls) (k + 1) = m.length + 1 + startOf ls k := rfl
      rw [startsFrom, List.getElem?_cons_succ, ih h, hstart, Nat.add_assoc, Nat.add_assoc,
        Nat.add_assoc]

/-- The bytes on the line of an offset that stand before the offset. -/
def lineBefore (text : Bytes) (offset : Nat) : Bytes :=
  (text.take offset).drop (startOf (splitAt newline text) ((text.take offset).count newline))

namespace Source

theorem getElem?_starts {l : Bytes} (h : (splitAt newline text)[k]? = some l) :
    (ofText text).starts[k]? = some (startOf (splitAt newline text) k) := by
  have hstart : (startsFrom 0 (splitAt newline text))[k]? =
      some (0 + startOf (splitAt newline text) k) :=
    getElem?_startsFrom h
  rw [Nat.zero_add] at hstart
  simpa [ofText] using hstart

/-- The line of an offset, with its start. -/
theorem exists_lineBefore (h : offset ≤ text.length) :
    ∃ l, (splitAt newline text)[(text.take offset).count newline]? = some l ∧
      startOf (splitAt newline text) ((text.take offset).count newline) ≤ offset ∧
      offset ≤ startOf (splitAt newline text) ((text.take offset).count newline) + l.length ∧
      lineBefore text offset =
        l.take (offset - startOf (splitAt newline text) ((text.take offset).count newline)) := by
  obtain ⟨l, start, hline, hstart, hle, hge, hat⟩ := exists_line text offset 0 h
  obtain rfl : start = startOf (splitAt newline text) ((text.take offset).count newline) := by
    have := Option.some.inj (hstart.symm.trans (getElem?_startsFrom hline))
    omega
  obtain ⟨r, hr⟩ := hat.piece
  refine ⟨l, hline, hle, hge, ?_⟩
  rw [lineBefore, List.drop_take, ← hr, List.take_append_of_le_length (by omega)]

/-- As many newlines stand before an offset as lines stand before its own. -/
theorem liesOn_count (h : offset ≤ text.length) :
    LiesOn (splitAt newline text) ((text.take offset).count newline) offset := by
  obtain ⟨l, hline, hle, hge, -⟩ := exists_lineBefore h
  exact ⟨l, hline, hle, hge⟩

/-- The place of an offset, with its column told from the bytes of the line. -/
theorem place_eq (h : offset ≤ text.length) :
    (ofText text).place offset =
      ⟨(text.take offset).count newline, Utf8.units16 (lineBefore text offset)⟩ := by
  obtain ⟨l, hline, -, -, hpart⟩ := exists_lineBefore h
  have hlines : (ofText text).lines[(text.take offset).count newline]? = some l := by
    simpa [ofText] using hline
  simp [place, lineAt_ofText h, hlines, getElem?_starts hline, hpart]

end Source

/-- **What the place of an offset is.** Take any bytes and any offset in them or at their end. The
    offset has a place, and the search by halving finds it without a fault. Its line is the number
    of newlines before the offset, which is the number of the one line that the offset lies on. Its
    column is the number of UTF-16 code units of what stands before the offset on that line, read as
    UTF-8, where a byte at which no character begins counts for one. -/
theorem place_of_offset (text : Bytes) (offset : Nat) (h : offset ≤ text.length) :
    ∃ column, (Source.ofText text).place? offset = some ⟨(text.take offset).count newline, column⟩ ∧
      Guarded.place (.ofText text) offset = .ok ⟨(text.take offset).count newline, column⟩ ∧
      (∀ k, LiesOn (splitAt newline text) k offset ↔ k = (text.take offset).count newline) ∧
      (∃ ps, Utf8.Reads (lineBefore text offset) ps) ∧
      ∀ ps, Utf8.Reads (lineBefore text offset) ps →
        column = (ps.flatMap fun p => Utf8.utf16 p.read).length := by
  have hplace : (Source.ofText text).place? offset =
      some ⟨(text.take offset).count newline, Utf8.units16 (lineBefore text offset)⟩ := by
    have hrange : (0 : Int) ≤ offset ∧ (offset : Int) ≤ text.length := by omega
    have htext : (Source.ofText text).text = text := rfl
    rw [Source.place?, htext, if_pos hrange, Int.toNat_natCast, Source.place_eq h]
  refine ⟨_, hplace, Guarded.place_ok_iff.mpr hplace, fun k => ⟨fun hk => ?_, ?_⟩,
    Utf8.exists_reads _, fun ps hps => hps.units16_eq⟩
  · exact hk.unique (Source.liesOn_count h)
  · rintro rfl
    exact Source.liesOn_count h

/-- A line that is a byte, then one with a character of four bytes, and one of three that is cut
    short. -/
def cutShort : Bytes := [0xC3, 0x0A, 0xF0, 0x9F, 0x98, 0x80, 0xE2, 0x82]

/-- The character of four bytes is two wide, and each of the two bytes behind it is one. -/
theorem place_of_offset_cutShort :
    8 ≤ cutShort.length ∧ Guarded.place (.ofText cutShort) 8 = .ok ⟨1, 4⟩ ∧
    ∃ column, (Source.ofText cutShort).place? 8 = some ⟨(cutShort.take 8).count newline, column⟩ ∧
      Guarded.place (.ofText cutShort) 8 = .ok ⟨(cutShort.take 8).count newline, column⟩ ∧
      (∀ k, LiesOn (splitAt newline cutShort) k 8 ↔ k = (cutShort.take 8).count newline) ∧
      (∃ ps, Utf8.Reads (lineBefore cutShort 8) ps) ∧
      ∀ ps, Utf8.Reads (lineBefore cutShort 8) ps →
        column = (ps.flatMap fun p => Utf8.utf16 p.read).length := by
  have hplace : (Source.ofText cutShort).place? 8 = some ⟨1, 4⟩ := by decide +kernel
  exact ⟨by decide, Guarded.place_ok_iff.mpr hplace, place_of_offset cutShort 8 (by decide)⟩

/-! ## The order of places -/

/-- The place comes before the other one, on an earlier line or further to the left. -/
def Place.Before (p q : Place) : Prop := p.line < q.line ∨ (p.line = q.line ∧ p.column < q.column)

theorem Place.eq_of_coordinates {p q : Place} (hline : p.line = q.line)
    (hcolumn : p.column = q.column) : p = q := by
  cases p
  cases q
  simp_all

theorem Place.Before.irrefl {p : Place} (h : p.Before p) : False := by
  unfold Place.Before at h
  omega

/-- Cutting the text at the offset changes no character, however much of the rest is read. -/
def CleanCut (text : Bytes) (offset : Nat) : Prop :=
  ∀ r, r <+: text.drop offset → Utf8.Seam (text.take offset) r

theorem take_of_byte_before {a : UInt8} (hpos : 0 < offset) (ha : text[offset - 1]? = some a) :
    text.take offset = text.take (offset - 1) ++ [a] := by
  obtain ⟨hlt, rfl⟩ := List.getElem?_eq_some_iff.mp ha
  rw [← List.take_succ_eq_append_getElem hlt, Nat.sub_add_cancel hpos]

theorem cleanCut_zero (text : Bytes) : CleanCut text 0 := fun r _ => Utf8.seam_nil r

/-- An ASCII byte is a character by itself, so nothing is cut behind it. -/
theorem cleanCut_behind_ascii {a : UInt8} (hpos : 0 < offset) (ha : a < 0x80)
    (hbyte : text[offset - 1]? = some a) : CleanCut text offset := by
  intro r _
  rw [take_of_byte_before hpos hbyte]
  exact Utf8.seam_behind_ascii _ r ha

/-- Nothing is cut in two before an ASCII byte. -/
theorem cleanCut_at_ascii {a : UInt8} (ha : a < 0x80) (hbyte : text[offset]? = some a) :
    CleanCut text offset := by
  obtain ⟨hlt, rfl⟩ := List.getElem?_eq_some_iff.mp hbyte
  intro r hr
  rw [List.drop_eq_getElem_cons hlt] at hr
  -- cutting off nothing is clean, and else the ASCII byte comes next
  cases r with
  | nil => simp [Utf8.Seam, Utf8.chars, Utf8.charsFrom]
  | cons b r =>
    obtain ⟨rfl, -⟩ := List.cons_prefix_cons.mp hr
    exact Utf8.seam_before_ascii _ r ha

/-- Lines with their newlines make up the text, and one newline more. -/
theorem sum_splitAt (text : Bytes) :
    ((splitAt newline text).map fun l => l.length + 1).sum = text.length + 1 := by
  induction text with
  | nil => rfl
  | cons b r ih =>
    by_cases hb : b = newline
    · simp [splitAt, hb, ih]
      omega
    · obtain ⟨p, ps, hps⟩ := exists_splitAt newline r
      rw [hps] at ih
      simp [splitAt, hb, hps] at ih ⊢
      omega

/-- A line ends within the text. -/
theorem startOf_add_le {l : Bytes} (h : (splitAt newline text)[k]? = some l) :
    startOf (splitAt newline text) k + l.length ≤ text.length := by
  have hsum := sum_splitAt text
  have hnext := startOf_succ h
  rw [← List.take_append_drop (k + 1) (splitAt newline text), List.map_append,
    List.sum_append] at hsum
  rw [startOf] at hnext
  omega

/-- A line stands where it starts, behind a newline unless this is the start of the text. -/
theorem line_at_startOf {l : Bytes} (h : (splitAt newline text)[k]? = some l) :
    l <+: text.drop (startOf (splitAt newline text) k) ∧
    (0 < startOf (splitAt newline text) k →
      text[startOf (splitAt newline text) k - 1]? = some newline) := by
  have hlines : (Source.ofText text).lines[k]? = some l := by simpa [Source.ofText] using h
  have hle := startOf_add_le h
  exact Source.line_at_start hlines (Source.getElem?_starts h) (by omega)

/-- Nothing is cut at the start of a line. -/
theorem cleanCut_startOf {l : Bytes} (h : (splitAt newline text)[k]? = some l) :
    CleanCut text (startOf (splitAt newline text) k) := by
  rcases Nat.eq_zero_or_pos (startOf (splitAt newline text) k) with hzero | hpos
  · rw [hzero]
    exact cleanCut_zero text
  · exact cleanCut_behind_ascii hpos (by decide) ((line_at_startOf h).2 hpos)

theorem take_eq_append_drop (text : Bytes) (hxy : x ≤ y) :
    text.take y = text.take x ++ (text.take y).drop x := by
  have htake : (text.take y).take x = text.take x := by rw [List.take_take, Nat.min_eq_left hxy]
  rw [← htake, List.take_append_drop]

theorem CleanCut.seam (h : CleanCut text x) : Utf8.Seam (text.take x) ((text.take y).drop x) := by
  refine h _ ?_
  rw [List.drop_take]
  exact List.take_prefix _ _

/-- Widths add up at clean cuts. -/
theorem CleanCut.units16_take (h : CleanCut text x) (hxy : x ≤ y) :
    Utf8.units16 (text.take y) =
      Utf8.units16 (text.take x) + Utf8.units16 ((text.take y).drop x) := by
  rw [← h.seam.units16_append, ← take_eq_append_drop text hxy]

/-- Behind a clean cut every further byte adds to the width. -/
theorem CleanCut.units16_lt (h : CleanCut text x) (hxy : x < y) (hy : y ≤ text.length) :
    Utf8.units16 (text.take x) < Utf8.units16 (text.take y) := by
  have hne : (text.take y).drop x ≠ [] := by
    intro hnil
    have := congrArg List.length hnil
    simp at this
    omega
  have hlt := h.seam.units16_lt hne
  rwa [← take_eq_append_drop text (Nat.le_of_lt hxy)] at hlt

/-- Further on there are no fewer newlines before. -/
theorem count_take_le (text : Bytes) (hxy : x ≤ y) :
    (text.take x).count newline ≤ (text.take y).count newline := by
  rw [take_eq_append_drop text hxy, List.count_append]
  exact Nat.le_add_right _ _

/-- **A place further on comes behind**, if nothing is cut in two at the first offset. -/
theorem place_before (h : CleanCut text x) (hxy : x < y) (hy : y ≤ text.length) :
    ((Source.ofText text).place x).Before ((Source.ofText text).place y) := by
  have hx : x ≤ text.length := by omega
  rw [Source.place_eq hx, Source.place_eq hy]
  rcases Nat.lt_or_eq_of_le (count_take_le text (Nat.le_of_lt hxy)) with hlt | heq
  · exact .inl hlt
  · -- on one line the widths from its start differ as the widths from the start of the text do
    refine .inr ⟨heq, ?_⟩
    obtain ⟨l, hline, hle, -, -⟩ := Source.exists_lineBefore hx
    have hstart := cleanCut_startOf hline
    have hwidthx := hstart.units16_take hle
    have hwidthy := hstart.units16_take (y := y) (by omega)
    have hwidth := h.units16_lt hxy hy
    show Utf8.units16 (lineBefore text x) < Utf8.units16 (lineBefore text y)
    rw [lineBefore, lineBefore, ← heq]
    omega

/-- The offset lies between two characters of the text, or at one of its ends. -/
def OnBoundary (s : String) (offset : Nat) : Prop :=
  ∃ a b, s = a ++ b ∧ offset = (ofString a).length

theorem ofString_append (a b : String) : ofString (a ++ b) = ofString a ++ ofString b := by
  simp [ofString, String.toList_append]

theorem OnBoundary.le_length {s : String} (h : OnBoundary s offset) :
    offset ≤ (ofString s).length := by
  obtain ⟨a, b, rfl, rfl⟩ := h
  rw [ofString_append, List.length_append]
  exact Nat.le_add_right _ _

/-- Between characters nothing is cut in two. -/
theorem OnBoundary.cleanCut {s : String} (h : OnBoundary s offset) :
    CleanCut (ofString s) offset := by
  obtain ⟨a, b, rfl, rfl⟩ := h
  intro r _
  rw [ofString_append, List.take_left]
  exact Utf8.seam_encoded _ r

end Markup

/-! ## The order of issues -/

namespace Rule

open Markup Bytes

variable {T : Tokenizer} {text : Bytes} {o : Options} {i : Issue} {k x y : Nat}

/-- Offsets at which there may be something to report: those of tags, of attributes, and of what
    stands behind the spaces in front of a line. -/
inductive Mark (T : Tokenizer) (text : Bytes) : Nat → Prop where
  | ofTag {t : Tag} : t ∈ (T.outline (.ofText text)).tags → Mark T text t.offset
  | ofAttribute {t : Tag} {a : Attribute} : t ∈ (T.outline (.ofText text)).tags → a ∈ t.attributes →
      Mark T text (t.offsetOf a)
  | ofIndent {k : Nat} {l : Bytes} : (splitAt newline text)[k]? = some l →
      Mark T text (startOf (splitAt newline text) k + indentOf l)

/-- The issue has the place of the mark at the offset. -/
structure ReportedAt (T : Tokenizer) (text : Bytes) (i : Issue) (offset : Nat) : Prop where
  mark : Mark T text offset
  line_eq : i.line = ((Source.ofText text).place offset).line
  column_eq : i.column = ((Source.ofText text).place offset).column

theorem all_indent (l : Bytes) : ∀ b ∈ l.takeWhile (· == 32), b = 32 := by
  intro b hb
  have := List.all_eq_true.mp (List.all_takeWhile (p := (· == 32)) (l := l)) b hb
  simpa using this

theorem take_indentOf (l : Bytes) : l.take (indentOf l) = l.takeWhile (· == 32) :=
  (List.prefix_iff_eq_take.mp (List.takeWhile_prefix _)).symm

/-- What stands before the indent ends are spaces. -/
theorem getElem?_indent {l : Bytes} {n : Nat} (h : n < indentOf l) : l[n]? = some 32 := by
  have hlt : n < (l.takeWhile (· == 32)).length := h
  have hspace := all_indent l _ (List.getElem_mem hlt)
  rw [← List.getElem?_take_of_lt h, take_indentOf, List.getElem?_eq_getElem hlt, hspace]

/-- Spaces take one column each. -/
theorem units16_indent (l : Bytes) : Utf8.units16 (l.take (indentOf l)) = indentOf l := by
  have hspaces : ∀ s : Bytes, (∀ b ∈ s, b = 32) → Utf8.units16 s = s.length := by
    intro s hs
    induction s with
    | nil => rfl
    | cons b r ih =>
      obtain rfl := hs b List.mem_cons_self
      have hrest := ih fun b hb => hs b (List.mem_cons_of_mem _ hb)
      have hwidth : Utf8.width16 (Char.ofNat (32 : UInt8).toNat) = 1 := by decide
      rw [Utf8.units16, Utf8.chars_cons_ascii (by decide), Utf8.totalWidth16, hwidth,
        List.length_cons, ← hrest, Nat.add_comm]
      rfl
  rw [take_indentOf]
  exact hspaces _ (all_indent l)

theorem indentOf_le (l : Bytes) : indentOf l ≤ l.length := List.takeWhile_prefix _ |>.length_le

/-- The spaces in front of a line end in the text. -/
theorem indent_le_length {l : Bytes} (h : (splitAt newline text)[k]? = some l) :
    startOf (splitAt newline text) k + indentOf l ≤ text.length := by
  have hline := startOf_add_le h
  have hindent := indentOf_le l
  omega

/-- Marks lie in the text. -/
theorem Mark.le_length (h : Mark T text x) : x ≤ text.length := by
  cases h with
  | @ofTag t ht =>
    obtain ⟨raw, hread⟩ := (outline_in_order T text).1 t ht
    exact Nat.le_of_lt (hread.standsIn.mono hread.length_le).offset_lt
  | @ofAttribute t a ht ha =>
    obtain ⟨raw, hread⟩ := (outline_in_order T text).1 t ht
    have hlies := ((hread.standsIn.mono hread.length_le).attributes_in a ha).2
    exact Nat.le_of_lt hlies.offset_lt
  | ofIndent hl => exact indent_le_length hl

/-- At a mark nothing is cut in two, whatever bytes the text has. -/
theorem Mark.cleanCut (h : Mark T text x) : CleanCut text x := by
  cases h with
  | @ofTag t ht =>
    obtain ⟨raw, hread⟩ := (outline_in_order T text).1 t ht
    exact cleanCut_at_ascii (by decide) hread.standsIn.opens
  | @ofAttribute t a ht ha =>
    obtain ⟨raw, hread⟩ := (outline_in_order T text).1 t ht
    obtain ⟨hpos, q, hq, hbefore⟩ := attribute_behind_ascii hread ha
    exact cleanCut_behind_ascii hpos hq hbefore
  | @ofIndent k l hl =>
    rcases Nat.eq_zero_or_pos (indentOf l) with hzero | hpos
    · rw [hzero]
      exact cleanCut_startOf hl
    · -- the byte before the mark is the last of the spaces
      have hspace : l[indentOf l - 1]? = some 32 := getElem?_indent (by omega)
      have hbyte : text[startOf (splitAt newline text) k + indentOf l - 1]? = some 32 := by
        obtain ⟨r, hr⟩ := (line_at_startOf hl).1
        have hlt := (List.getElem?_eq_some_iff.mp hspace).1
        rw [Nat.add_sub_assoc hpos, ← List.getElem?_drop, ← hr, List.getElem?_append_left hlt]
        exact hspace
      exact cleanCut_behind_ascii (by omega) (by decide) hbyte

/-- **Marks have places in their order.** -/
theorem Mark.place_before (hx : Mark T text x) (hy : Mark T text y) (hxy : x < y) :
    ((Source.ofText text).place x).Before ((Source.ofText text).place y) :=
  Markup.place_before hx.cleanCut hxy hy.le_length

/-- Different marks have different places. -/
theorem Mark.place_ne (hx : Mark T text x) (hy : Mark T text y) (hxy : x ≠ y) :
    (Source.ofText text).place x ≠ (Source.ofText text).place y := by
  intro heq
  rcases Nat.lt_or_gt_of_ne hxy with hlt | hgt
  · have hbefore := hx.place_before hy hlt
    rw [heq] at hbefore
    exact hbefore.irrefl
  · have hbefore := hy.place_before hx hgt
    rw [heq] at hbefore
    exact hbefore.irrefl

/-- The mark behind the spaces in front of line `k` has its place on line `k`, behind as many
    columns as there are spaces. -/
theorem place_indent {l : Bytes} (h : (splitAt newline text)[k]? = some l) :
    (Source.ofText text).place (startOf (splitAt newline text) k + indentOf l) =
      ⟨k, indentOf l⟩ := by
  have hle := indent_le_length h
  have hindent := indentOf_le l
  obtain ⟨l', hline, -, -, hpart⟩ := Source.exists_lineBefore hle
  -- the end of the spaces still lies on the line
  have hk : (text.take (startOf (splitAt newline text) k + indentOf l)).count newline = k :=
    (Source.liesOn_count hle).unique ⟨l, h, by omega, by omega⟩
  rw [hk] at hline hpart
  obtain rfl : l' = l := Option.some.inj (hline.symm.trans h)
  rw [Source.place_eq hle, hk, hpart, Nat.add_sub_cancel_left, units16_indent]

/-- Every issue is about a mark. -/
theorem reportedAt_of_mem_check (h : i ∈ T.check o text) : ∃ x, ReportedAt T text i x := by
  -- issues on lines are about indents, all others about tags and attributes
  rcases mem_check_iff.mp h with ⟨-, hline⟩ | htag
  · obtain ⟨k, l, hl, hi⟩ := mem_checkLines_iff.mp hline
    obtain ⟨-, rfl⟩ := mem_checkIndent_iff.mp hi
    refine ⟨_, .ofIndent hl, ?_, ?_⟩
    · rw [place_indent hl, Nat.zero_add]
    · rw [place_indent hl]
  · obtain ⟨t, ht, r, -, hreports⟩ := reports_of_mem_checkTags htag
    rcases hreports with ⟨data, rfl⟩ | ⟨a, ha, data, rfl⟩
    · exact ⟨_, .ofTag ht, rfl, rfl⟩
    · exact ⟨_, .ofAttribute ht ha, rfl, rfl⟩

/-- Issues that do not stand behind each other are about marks in the same order. -/
theorem ReportedAt.le_of_notAfter {j : Issue} (hi : ReportedAt T text i x)
    (hj : ReportedAt T text j y) (h : i.line < j.line ∨ (i.line = j.line ∧ i.column ≤ j.column)) :
    x ≤ y := by
  rcases Nat.lt_or_ge y x with hlt | hge
  · have hbefore := hj.mark.place_before hi.mark hlt
    rw [hi.line_eq, hi.column_eq, hj.line_eq, hj.column_eq] at h
    unfold Place.Before at hbefore
    omega
  · exact hge

/-- **Places are in the order of the text.** Of two offsets between characters of a text in UTF-8,
    the smaller one has the place that comes first. Different marks have different places. And
    linting with options that are in order gives issues that each are about a mark, in the order of
    these marks in the text. -/
theorem places_in_text_order (T : Tokenizer) (config : Config) (o : Options) (s : String)
    (h : Options.ofConfig config = .ok o) :
    (∀ x y, OnBoundary s x → OnBoundary s y → x < y →
      ((Source.ofText (ofString s)).place x).Before ((Source.ofText (ofString s)).place y)) ∧
    (∀ x y, Mark T (ofString s) x → Mark T (ofString s) y → x ≠ y →
      (Source.ofText (ofString s)).place x ≠ (Source.ofText (ofString s)).place y) ∧
    ∃ issues, T.lint config (ofString s) false = .ok issues ∧
      (∀ i ∈ issues, ∃ x, ReportedAt T (ofString s) i x) ∧
      issues.Pairwise fun i j => ∀ x y, ReportedAt T (ofString s) i x →
        ReportedAt T (ofString s) j y → x ≤ y := by
  refine ⟨fun x y hx hy hxy => ?_, fun x y hx hy hxy => hx.place_ne hy hxy, T.check o (ofString s),
    lint_eq_check h _, fun i hi => reportedAt_of_mem_check hi, ?_⟩
  · exact Markup.place_before hx.cleanCut hxy hy.le_length
  · have hsorted := List.pairwise_mergeSort notAfter_trans notAfter_total
    refine (hsorted _).imp fun hij x y hx hy => ?_
    exact hx.le_of_notAfter hy (notAfter_iff.mp hij)

/-- Characters of two and of four bytes, and on the next line a tag with attributes. -/
def accented : String := "é😀\n <p style é style>"

/-- The issues count characters, not bytes. -/
theorem places_in_text_order_accented :
    OnBoundary accented 2 ∧ OnBoundary accented 6 ∧
    ((Source.ofText (ofString accented)).place 2).Before
      ((Source.ofText (ofString accented)).place 6) ∧
    ∃ issues, lint [] (ofString accented) false = .ok issues ∧
      (∃ i ∈ issues, i.code = "E002" ∧ i.line = 1 ∧ i.column = 10) ∧
      (∃ i ∈ issues, i.code = "E003" ∧ i.line = 1 ∧ i.column = 12) ∧
      (∀ i ∈ issues, ∃ x, ReportedAt .html (ofString accented) i x) ∧
      issues.Pairwise fun i j =>
        ∀ x y, ReportedAt .html (ofString accented) i x → ReportedAt .html (ofString accented) j y →
          x ≤ y := by
  have hfirst : OnBoundary accented 2 := ⟨"é", "😀\n <p style é style>", by decide, by decide⟩
  have hsecond : OnBoundary accented 6 := ⟨"é😀", "\n <p style é style>", by decide, by decide⟩
  obtain ⟨hplaces, -, issues, hlint, hmarks, hsorted⟩ :=
    places_in_text_order .html [] unconfigured accented ofConfig_nil
  obtain rfl := Except.ok.inj ((lint_eq_check (T := .html) ofConfig_nil _).symm.trans hlint)
  exact ⟨hfirst, hsecond, hplaces 2 6 hfirst hsecond (by decide), _, hlint,
    exists_check_of_tags (by decide +kernel), exists_check_of_tags (by decide +kernel), hmarks,
    hsorted⟩

-- within a character there is no such order: two of its bytes are as wide as the whole of it
example : (Source.ofText (ofString accented)).place 4 =
    (Source.ofText (ofString accented)).place 6 := by
  decide +kernel

end Rule
end MarkupLint
