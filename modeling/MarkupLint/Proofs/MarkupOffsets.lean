/-
  Offsets denote what they claim: at the offset of a tag the document holds `<` and the element
  name, at the offset of an attribute its name, and behind that its value. Tags and attributes stand
  in the order of their offsets and do not overlap.

  Two readers work one inside the other. The outer one cuts tokens off the document, and
  `outline_tags` says where each tag begins: at the sum of the lengths of the tokens before. The
  inner one moves a cursor over the raw text of a tag. What it needs is said once: every step of the
  reader *reaches* a place further on (`Cursor.Reaches`), so a piece that was read in front of a
  cursor is a piece of the tag.
-/
import Mathlib.Data.List.Infix
import MarkupLint.Proofs.Tokenizer

namespace MarkupLint.Markup

open Ascii

/-! ## Cursors -/

namespace Cursor

variable {raw : Bytes} {c d e : Cursor}

/-- The cursor stands in `raw`, with what follows its position before it. -/
def In (raw : Bytes) (c : Cursor) : Prop := c.rest = raw.drop c.position

/-- The byte before a cursor is the one at its position. -/
theorem In.getElem? {b : UInt8} {r : Bytes} (h : c.In raw) (hb : c.rest = b :: r) :
    raw[c.position]? = some b := by
  have hhead : (raw.drop c.position)[0]? = some b := by rw [← h, hb]; rfl
  rwa [List.getElem?_drop] at hhead

/-- `d` is the place behind some bytes that follow `c`. -/
def Reaches (c d : Cursor) : Prop :=
  ∃ piece, c.rest = piece ++ d.rest ∧ d.position = c.position + piece.length

theorem Reaches.refl (c : Cursor) : c.Reaches c := ⟨[], rfl, rfl⟩

theorem Reaches.trans (h : c.Reaches d) (h' : d.Reaches e) : c.Reaches e := by
  obtain ⟨p, hp, hpos⟩ := h
  obtain ⟨q, hq, hpos'⟩ := h'
  refine ⟨p ++ q, by rw [hp, hq, List.append_assoc], ?_⟩
  rw [List.length_append]
  omega

/-- A cursor does not go back. -/
theorem Reaches.position_le (h : c.Reaches d) : c.position ≤ d.position := by
  obtain ⟨p, -, hpos⟩ := h
  omega

/-- A cursor stays in the text that it stands in. -/
theorem Reaches.in (h : c.Reaches d) (hc : c.In raw) : d.In raw := by
  obtain ⟨p, hp, hpos⟩ := h
  have hdrop : raw.drop d.position = (raw.drop c.position).drop p.length := by
    rw [List.drop_drop, hpos]
  rw [In, hdrop, ← hc, hp, List.drop_left]

theorem rest_eq_span_append (p : UInt8 → Bool) (c : Cursor) :
    c.rest = c.span p ++ (c.past p).rest :=
  List.takeWhile_append_dropWhile.symm

/-- Passing over bytes reaches a place further on. -/
theorem reaches_past (p : UInt8 → Bool) (c : Cursor) : c.Reaches (c.past p) :=
  ⟨c.span p, rest_eq_span_append p c, rfl⟩

theorem reaches_skip (c : Cursor) : c.Reaches c.skip := by
  refine ⟨c.rest.take 1, (List.take_append_drop 1 c.rest).symm, ?_⟩
  rw [List.length_take]
  rfl

/-- The byte at which `past` stops is not one of those that it passes over. -/
theorem not_of_past {p : UInt8 → Bool} {b : UInt8} {r : Bytes} (h : (c.past p).rest = b :: r) :
    p b = false := by
  have hd := List.head?_dropWhile_not p c.rest
  have h' : c.rest.dropWhile p = b :: r := h
  rw [h'] at hd
  simpa using hd

end Cursor

/-! ## The attributes of a tag -/

/-- An attribute of a tag that begins at `base` lies in the text and takes no byte from `stop` on:
    the text holds the name at the offset of the attribute, and the value, if there is one,
    somewhere behind the name. -/
structure Attribute.LiesIn (text : Bytes) (base stop : Nat) (a : Attribute) : Prop where
  name_ne_nil : a.name ≠ []
  name_at : a.name <+: text.drop (base + a.offset)
  name_end : base + a.offset + a.name.length ≤ stop
  value_at : ∀ v, a.value = some v →
    ∃ o, base + a.offset + a.name.length < o ∧ v <+: text.drop o ∧ o + v.length ≤ stop

namespace Attribute

variable {text raw : Bytes} {base stop stop' : Nat} {a : Attribute}

/-- What ends before a place ends before any later one. -/
theorem LiesIn.mono (h : a.LiesIn text base stop) (hle : stop ≤ stop') :
    a.LiesIn text base stop' := by
  refine ⟨h.name_ne_nil, h.name_at, Nat.le_trans h.name_end hle, fun v hv => ?_⟩
  obtain ⟨o, ho, hat, hend⟩ := h.value_at v hv
  exact ⟨o, ho, hat, Nat.le_trans hend hle⟩

/-- An attribute takes at least a byte. -/
theorem LiesIn.offset_lt (h : a.LiesIn text base stop) : base + a.offset < stop := by
  have hname := List.length_pos_iff.mpr h.name_ne_nil
  have hend := h.name_end
  omega

/-- What lies in a tag lies in the text that the tag is a piece of. -/
theorem LiesIn.of_piece (h : a.LiesIn raw 0 stop) (hraw : raw <+: text.drop base) :
    a.LiesIn text base (base + stop) := by
  have hpiece : ∀ {v : Bytes} {o : Nat}, v <+: raw.drop o → v <+: text.drop (base + o) := by
    intro v o hv
    rw [← List.drop_drop]
    exact hv.trans (hraw.drop o)
  have hname := h.name_at
  have hend := h.name_end
  rw [Nat.zero_add] at hname hend
  refine ⟨h.name_ne_nil, hpiece hname, by omega, fun v hv => ?_⟩
  obtain ⟨o, ho, hat, hoend⟩ := h.value_at v hv
  exact ⟨base + o, by omega, hpiece hat, by omega⟩

end Attribute

section Reader

variable {raw : Bytes} {c d : Cursor} {a : Attribute}

theorem reaches_readValue (c : Cursor) : c.Reaches (readValue c).2 := by
  unfold readValue
  split
  · split
    · exact (c.reaches_skip.trans (Cursor.reaches_past _ _)).trans (Cursor.reaches_skip _)
    · exact Cursor.reaches_past _ _
  · exact .refl c

/-- The value stands in front of a place that the reader comes by, and the reader stops behind
    it. -/
theorem value_of_readValue (c : Cursor) :
    ∃ e, c.Reaches e ∧ (readValue c).1 <+: e.rest ∧
      e.position + (readValue c).1.length ≤ (readValue c).2.position := by
  unfold readValue
  split
  · split
    · exact ⟨c.skip, c.reaches_skip, List.takeWhile_prefix _,
        (Cursor.reaches_skip (c.skip.past _)).position_le⟩
    · exact ⟨c, .refl c, List.takeWhile_prefix _, Nat.le_refl _⟩
  · exact ⟨c, .refl c, List.nil_prefix, Nat.le_refl _⟩

theorem reaches_readValuePart (c : Cursor) : c.Reaches (readValuePart c).2 := by
  unfold readValuePart
  simp only
  split
  · split
    · exact (((c.reaches_past isSpace).trans (Cursor.reaches_skip _)).trans
        (Cursor.reaches_past _ _)).trans (reaches_readValue _)
    · exact .refl c
  · exact .refl c

/-- A value follows at least the `=` that announces it. -/
theorem value_of_readValuePart {v : Bytes} (h : (readValuePart c).1 = some v) :
    ∃ e, c.Reaches e ∧ c.position < e.position ∧ v <+: e.rest ∧
      e.position + v.length ≤ (readValuePart c).2.position := by
  unfold readValuePart at h ⊢
  simp only at h ⊢
  split at h
  · rename_i b r hb
    split at h
    · rename_i heq
      obtain ⟨e, he, hat, hend⟩ := value_of_readValue ((c.past isSpace).skip.past isSpace)
      obtain rfl := Option.some.inj h
      -- the `=` is skipped, so the value begins behind it
      have hskip : c.position < (c.past isSpace).skip.position := by
        have hle := (c.reaches_past isSpace).position_le
        have hstep : (c.past isSpace).skip.position = (c.past isSpace).position + 1 := by
          simp [Cursor.skip, hb]
        omega
      have hgap := Cursor.reaches_past isSpace (c.past isSpace).skip
      refine ⟨e, ((c.reaches_past isSpace).trans (Cursor.reaches_skip _)).trans (hgap.trans he),
        ?_, hat, ?_⟩
      · have hle := hgap.position_le
        have hle' := he.position_le
        omega
      · simpa only [heq, if_true] using hend
    · exact absurd h (by simp)
  · exact absurd h (by simp)

/-- What a turn does: it passes over separators, reads a name there and a value part behind it. -/
theorem turn_eq_some {x : Option Attribute} (h : turn c = some (x, d)) :
    ∃ b r, (c.past isSeparator).rest = b :: r ∧ b ≠ greaterThan ∧
      d = (readValuePart ((c.past isSeparator).past isAttributeByte)).2 ∧
      ∀ a, x = some a → a.offset = (c.past isSeparator).position ∧ a.name ≠ [] ∧
        a.name = (c.past isSeparator).span isAttributeByte ∧
        a.value = (readValuePart ((c.past isSeparator).past isAttributeByte)).1 := by
  unfold turn at h
  simp only at h
  split at h
  · exact absurd h (by simp)
  · rename_i b r hb
    split at h
    · exact absurd h (by simp)
    · rename_i hgt
      obtain ⟨hx, hd⟩ := Prod.mk.inj (Option.some.inj h)
      refine ⟨b, r, hb, hgt, hd.symm, fun a ha => ?_⟩
      rw [ha] at hx
      split at hx
      · exact absurd hx (by simp)
      · rename_i hname
        obtain rfl := Option.some.inj hx
        exact ⟨rfl, by simpa using hname, rfl, rfl⟩

theorem mem_span {p : UInt8 → Bool} {b : UInt8} (hb : b ∈ c.span p) : p b = true :=
  List.all_eq_true.mp List.all_takeWhile b hb

/-- A name is read as far as the bytes of names go, and is not empty. The induction is on the turns
    of the reader. -/
theorem name_of_mem_attributesFrom (ha : a ∈ attributesFrom c) :
    a.name ≠ [] ∧ ∀ b ∈ a.name, isAttributeByte b = true := by
  fun_induction attributesFrom c with
  | case1 c hturn => exact absurd ha List.not_mem_nil
  | case2 c x d hturn ih =>
    rcases List.mem_append.mp ha with hx | hrest
    · obtain rfl : x = some a := Option.mem_toList.mp hx
      obtain ⟨-, -, -, -, -, hread⟩ := turn_eq_some hturn
      obtain ⟨-, hne, hname, -⟩ := hread a rfl
      refine ⟨hne, fun b hb => ?_⟩
      rw [hname] at hb
      exact mem_span hb
    · exact ih hrest

theorem reaches_turn {x : Option Attribute} (h : turn c = some (x, d)) : c.Reaches d := by
  obtain ⟨b, r, -, -, rfl, -⟩ := turn_eq_some h
  exact ((c.reaches_past _).trans (Cursor.reaches_past _ _)).trans (reaches_readValuePart _)

/-- **What one turn reads**: an attribute that lies between the place where the turn begins and the
    place where it stops. -/
theorem liesIn_of_turn (h : turn c = some (some a, d)) (hc : c.In raw) :
    c.position ≤ a.offset ∧ a.LiesIn raw 0 d.position := by
  obtain ⟨b, r, -, -, rfl, hread⟩ := turn_eq_some h
  obtain ⟨hoffset, hne, hname, hvalue⟩ := hread a rfl
  have hstart := c.reaches_past isSeparator
  have hover := (c.past isSeparator).reaches_past isAttributeByte
  -- the name ends where the reader goes on to the value
  have hbehind : ((c.past isSeparator).past isAttributeByte).position =
      a.offset + a.name.length := by
    rw [hoffset, hname]
    rfl
  refine ⟨hoffset ▸ hstart.position_le, hne, ?_, ?_, fun v hv => ?_⟩
  · have hin : (c.past isSeparator).In raw := hstart.in hc
    rw [Nat.zero_add, hoffset, ← hin, hname]
    exact List.takeWhile_prefix _
  · have hle := (reaches_readValuePart ((c.past isSeparator).past isAttributeByte)).position_le
    omega
  · obtain ⟨e, he, hlt, hat, hend⟩ := value_of_readValuePart (hvalue ▸ hv)
    have hin : e.In raw := he.in (hover.in (hstart.in hc))
    exact ⟨e.position, by omega, hin ▸ hat, hend⟩

/-- **What the reader reads from a cursor on**: attributes one behind the other. The induction is on
    the turns; a later attribute begins where an earlier turn has stopped, or further on. -/
theorem attributesFrom_in_order (hc : c.In raw) (hle : c.position ≤ raw.length) :
    (∀ a ∈ attributesFrom c, c.position ≤ a.offset ∧ a.LiesIn raw 0 raw.length) ∧
    (attributesFrom c).Pairwise fun a b => a.LiesIn raw 0 b.offset := by
  fun_induction attributesFrom c with
  | case1 c hturn => simp
  | case2 c x d hturn ih =>
    have hreach := reaches_turn hturn
    have hdle : d.position ≤ raw.length := by
      obtain ⟨p, hp, hpos⟩ := hreach
      have hlen : (raw.drop c.position).length = p.length + d.rest.length := by
        rw [← hc, hp, List.length_append]
      rw [List.length_drop] at hlen
      omega
    obtain ⟨hall, hpairs⟩ := ih (hreach.in hc) hdle
    have hlater : ∀ b ∈ attributesFrom d, c.position ≤ b.offset ∧ b.LiesIn raw 0 raw.length :=
      fun b hb => ⟨Nat.le_trans hreach.position_le (hall b hb).1, (hall b hb).2⟩
    -- a turn without a name adds nothing, and one with a name adds it in front of the others
    cases x with
    | none => exact ⟨hlater, hpairs⟩
    | some a =>
      obtain ⟨hoffset, hlies⟩ := liesIn_of_turn hturn hc
      refine ⟨fun b hb => ?_, List.pairwise_cons.mpr ⟨fun b hb => ?_, hpairs⟩⟩
      · rcases List.mem_cons.mp hb with rfl | hb
        · exact ⟨hoffset, hlies.mono hdle⟩
        · exact hlater b hb
      · exact hlies.mono (hall b hb).1

end Reader

/-- Where the reader starts: behind the element name. -/
theorem in_afterName (raw : Bytes) (p : UInt8 → Bool) : (Cursor.past p ⟨1, raw.drop 1⟩).In raw :=
  (Cursor.reaches_past p _).in rfl

/-- The attributes of a tag stand behind each other, and behind its first byte. -/
theorem attributes_in_order {raw : Bytes} (hraw : raw ≠ []) :
    (∀ a ∈ attributes raw, 0 < a.offset ∧ a.LiesIn raw 0 raw.length) ∧
    (attributes raw).Pairwise fun a b => a.LiesIn raw 0 b.offset := by
  have hlen := List.length_pos_iff.mpr hraw
  have hle : (Cursor.past isNameByte ⟨1, raw.drop 1⟩).position ≤ raw.length := by
    have htake := (List.takeWhile_prefix isNameByte (l := raw.drop 1)).length_le
    rw [List.length_drop] at htake
    show 1 + ((raw.drop 1).takeWhile isNameByte).length ≤ raw.length
    omega
  obtain ⟨hall, hpairs⟩ := attributesFrom_in_order (in_afterName raw isNameByte) hle
  refine ⟨fun a ha => ⟨?_, (hall a ha).2⟩, hpairs⟩
  have hstart := (Cursor.reaches_past isNameByte ⟨1, raw.drop 1⟩).position_le
  exact Nat.lt_of_lt_of_le (Nat.lt_of_lt_of_le Nat.one_pos hstart) (hall a ha).1

/-! ## The tags of a document -/

/-- The tags among tokens, the first of which begins at `offset`. -/
def tagsFrom (offset : Nat) : List Token → List Tag
  | [] => []
  | t :: ts =>
    (if t.isTag then [⟨t.name, offset, attributes t.raw⟩] else []) ++
      tagsFrom (offset + t.raw.length) ts

/-- A token moves the offset by its length. -/
theorem OutlineState.step_offset (s : Source) (st : OutlineState) (t : Token) :
    (st.step s t).offset = st.offset + t.raw.length := by
  unfold OutlineState.step
  simp only
  split
  · rfl
  · rfl
  · split <;> rfl
  · split <;> rfl
  · rfl
  · rfl

/-- A tag is put before those that were found, with the offset at which its token begins. -/
theorem OutlineState.step_tags (s : Source) (st : OutlineState) (t : Token) :
    (st.step s t).tags = (if t.isTag then [⟨t.name, st.offset, attributes t.raw⟩] else []) ++
      st.tags := by
  unfold OutlineState.step Token.isTag
  cases t.kind with
  | startTag => rfl
  | selfClosingTag => rfl
  | endTag => simp only; split <;> rfl
  | text => simp only; split <;> rfl
  | comment => rfl
  | doctype => rfl

/-- The tags that are found are those from the offset on, latest first. -/
theorem foldl_step_tags (s : Source) (ts : List Token) (st : OutlineState) :
    (ts.foldl (OutlineState.step s) st).tags = (tagsFrom st.offset ts).reverse ++ st.tags := by
  induction ts generalizing st with
  | nil => rfl
  | cons t ts ih =>
    rw [List.foldl_cons, ih, OutlineState.step_offset, OutlineState.step_tags, tagsFrom,
      List.reverse_append, List.append_assoc]
    cases t.isTag <;> rfl

/-- Each tag begins at the sum of the lengths of the tokens before it. -/
theorem outline_tags (T : Tokenizer) (s : Source) :
    (T.outline s).tags = tagsFrom 0 (T.tokens s.text) := by
  show (((T.tokens s.text).foldl (OutlineState.step s) OutlineState.start).tags).reverse = _
  rw [foldl_step_tags]
  simp [OutlineState.start]

/-- The tag was read from the piece `raw` of the text, which begins at its offset. -/
structure Tag.ReadFrom (text raw : Bytes) (t : Tag) : Prop where
  piece : raw <+: text.drop t.offset
  opens : OpensWith t.name raw
  attributes_eq : t.attributes = Markup.attributes raw

/-- **What cutting off tokens gives**: tags that were read from pieces of the text, one behind the
    other. The induction is on the tokens; a later tag begins where the token of an earlier one
    ends, or further on. -/
theorem tagsFrom_in_order {text s : Bytes} {ts : List Token} (hcut : Cut s ts) {base : Nat}
    (htext : text.drop base = s) :
    (∀ t ∈ tagsFrom base ts, base ≤ t.offset ∧ ∃ raw, t.ReadFrom text raw) ∧
    (tagsFrom base ts).Pairwise fun t u =>
      ∃ raw, t.ReadFrom text raw ∧ t.offset + raw.length ≤ u.offset := by
  induction hcut generalizing base with
  | nil s => simp [tagsFrom]
  | cons t r ts htag hrest ih =>
    -- behind the token follow the others, and there the induction goes on
    have hnext : text.drop (base + t.raw.length) = r := by
      rw [← List.drop_drop, htext, List.drop_left]
    obtain ⟨hall, hpairs⟩ := ih hnext
    have hlater : ∀ u ∈ tagsFrom (base + t.raw.length) ts,
        base ≤ u.offset ∧ ∃ raw, u.ReadFrom text raw :=
      fun u hu => ⟨Nat.le_trans (Nat.le_add_right _ _) (hall u hu).1, (hall u hu).2⟩
    rw [tagsFrom]
    cases hkind : t.isTag with
    | false => exact ⟨hlater, hpairs⟩
    | true =>
      have hread : Tag.ReadFrom text t.raw ⟨t.name, base, attributes t.raw⟩ :=
        ⟨⟨r, htext.symm⟩, htag hkind, rfl⟩
      refine ⟨fun u hu => ?_,
        List.pairwise_cons.mpr ⟨fun u hu => ⟨t.raw, hread, (hall u hu).1⟩, hpairs⟩⟩
      rcases List.mem_cons.mp hu with rfl | hu
      · exact ⟨Nat.le_refl _, t.raw, hread⟩
      · exact hlater u hu

/-- The tags of a document are read from pieces of it, one behind the other. -/
theorem outline_in_order (T : Tokenizer) (text : Bytes) :
    (∀ t ∈ (T.outline (.ofText text)).tags, ∃ raw, t.ReadFrom text raw) ∧
    (T.outline (.ofText text)).tags.Pairwise fun t u =>
      ∃ raw, t.ReadFrom text raw ∧ t.offset + raw.length ≤ u.offset := by
  have hstart : text.drop 0 = text := List.drop_zero
  obtain ⟨hall, hpairs⟩ := tagsFrom_in_order (T.cut text) hstart
  rw [outline_tags]
  exact ⟨fun t ht => (hall t ht).2, hpairs⟩

/-- A tag stands in the text where its offset says, and its attributes behind the element name; none
    of its bytes lies at `stop` or further on. -/
structure Tag.StandsIn (text : Bytes) (stop : Nat) (t : Tag) : Prop where
  /-- the text holds `<` at the offset -/
  opens : text[t.offset]? = some lessThan
  /-- and then the name, letter case aside -/
  named : ∃ written, written ≠ [] ∧ written <+: text.drop (t.offset + 1) ∧
    lowerAll written = t.name ∧ t.offset + 1 + written.length ≤ stop
  attributes_in : ∀ a ∈ t.attributes, t.offset < t.offsetOf a ∧ a.LiesIn text t.offset stop
  attributes_sorted : t.attributes.Pairwise fun a b =>
    t.offsetOf a < t.offsetOf b ∧ a.LiesIn text t.offset (t.offsetOf b)

namespace Tag

variable {text raw : Bytes} {stop stop' : Nat} {t : Tag}

theorem StandsIn.mono (h : t.StandsIn text stop) (hle : stop ≤ stop') : t.StandsIn text stop' := by
  obtain ⟨written, hne, hat, hname, hend⟩ := h.named
  exact ⟨h.opens, ⟨written, hne, hat, hname, Nat.le_trans hend hle⟩,
    fun a ha => ⟨(h.attributes_in a ha).1, (h.attributes_in a ha).2.mono hle⟩, h.attributes_sorted⟩

/-- A tag takes at least a byte. -/
theorem StandsIn.offset_lt (h : t.StandsIn text stop) : t.offset < stop := by
  obtain ⟨written, -, -, -, hend⟩ := h.named
  omega

theorem ReadFrom.length_le (h : t.ReadFrom text raw) : t.offset + raw.length ≤ text.length := by
  obtain ⟨written, more, -, hraw, -⟩ := h.opens
  have hle := h.piece.length_le
  have hpos : 0 < raw.length := by rw [hraw]; exact Nat.zero_lt_succ _
  rw [List.length_drop] at hle
  omega

/-- A tag that was read from a piece of the text stands there. -/
theorem ReadFrom.standsIn (h : t.ReadFrom text raw) : t.StandsIn text (t.offset + raw.length) := by
  obtain ⟨written, more, hne, hraw, hname⟩ := h.opens
  obtain ⟨r, hr⟩ := h.piece
  have hrawne : raw ≠ [] := by rw [hraw]; exact List.cons_ne_nil _ _
  obtain ⟨hall, hpairs⟩ := attributes_in_order hrawne
  rw [← h.attributes_eq] at hall hpairs
  refine ⟨?_, ⟨written, hne, ?_, hname.symm, ?_⟩, fun a ha => ⟨?_, (hall a ha).2.of_piece h.piece⟩,
    ?_⟩
  · have hhead : (text.drop t.offset)[0]? = some lessThan := by rw [← hr, hraw]; rfl
    rwa [List.getElem?_drop] at hhead
  · have htail : text.drop (t.offset + 1) = written ++ (more ++ r) := by
      rw [← List.drop_drop, ← hr, hraw, List.cons_append, List.drop_succ_cons, List.drop_zero,
        List.append_assoc]
    exact ⟨more ++ r, htail.symm⟩
  · rw [hraw, List.length_cons, List.length_append]
    omega
  · have hpos := (hall a ha).1
    show t.offset < t.offset + a.offset
    omega
  · refine hpairs.imp fun {a b} h' => ⟨?_, h'.of_piece h.piece⟩
    have hlt := h'.offset_lt
    show t.offset + a.offset < t.offset + b.offset
    omega

end Tag

/-- **Offsets denote what they claim**, in every document and with any tokenizer: at the offset of a
    tag stands `<` and then the element name, letter case aside; at the offset of an attribute
    stands its name, which is not empty, and its value, if it has one, is a piece of the text behind
    that. Offsets rise from tag to tag, and from attribute to attribute in a tag; a tag with all its
    attributes ends before the next tag begins, an attribute with its value before the next
    attribute. -/
theorem offsets_denote_pieces (T : Tokenizer) (text : Bytes) :
    (∀ t ∈ (T.outline (.ofText text)).tags, t.StandsIn text text.length) ∧
    (T.outline (.ofText text)).tags.Pairwise fun t u =>
      t.offset < u.offset ∧ t.StandsIn text u.offset := by
  obtain ⟨hall, hpairs⟩ := outline_in_order T text
  refine ⟨fun t ht => ?_, hpairs.imp fun h => ?_⟩
  · obtain ⟨raw, hread⟩ := hall t ht
    exact hread.standsIn.mono hread.length_le
  · obtain ⟨raw, hread, hle⟩ := h
    have hstands := hread.standsIn.mono hle
    exact ⟨hstands.offset_lt, hstands⟩

end MarkupLint.Markup
