/-
  Reading a text is the inverse of writing it in UTF-8.

  The forms that a character can have (`Form`) are those that `sequence?` accepts, and also those
  that encoding gives. So `sequence?` reads a character exactly where its encoding stands
  (`encode_of_sequence?`, `sequence?_encode`). A whole text is then read as encoded characters and
  bytes at which none begins (`Reads`), and its width is the number of UTF-16 code units of these
  pieces (`Reads.units16_eq`).
-/
import MarkupLint.Proofs.Places

namespace MarkupLint.Utf8

/-! ## Forms of characters -/

theorem inRange_iff {lo hi b : UInt8} :
    (lo ≤ b && b ≤ hi) = true ↔ lo.toNat ≤ b.toNat ∧ b.toNat ≤ hi.toNat := by
  rw [Bool.and_eq_true, decide_eq_true_iff, decide_eq_true_iff, UInt8.le_iff_toNat_le,
    UInt8.le_iff_toNat_le]

/-- Bytes are compared as numbers, so that arithmetic can decide about them. -/
theorem isContinuation_iff {b : UInt8} :
    isContinuation b = true ↔ 0x80 ≤ b.toNat ∧ b.toNat ≤ 0xBF := inRange_iff

/-- The second byte is a continuation byte, and four lead bytes allow only some of these. -/
theorem secondOk_iff {b c : UInt8} :
    secondOk b c = true ↔ (0x80 ≤ c.toNat ∧ c.toNat ≤ 0xBF) ∧
      (b.toNat = 0xE0 → 0xA0 ≤ c.toNat) ∧ (b.toNat = 0xED → c.toNat ≤ 0x9F) ∧
      (b.toNat = 0xF0 → 0x90 ≤ c.toNat) ∧ (b.toNat = 0xF4 → c.toNat ≤ 0x8F) := by
  unfold secondOk isContinuation
  simp only [← UInt8.toNat_inj, UInt8.reduceToNat]
  repeat' split
  all_goals
    rw [inRange_iff]
    simp only [UInt8.reduceToNat]
    omega

/-- The forms of one to four bytes, and the number that is put together from their bits. -/
inductive Form : Bytes → Nat → Prop where
  | one {b : UInt8} : b.toNat < 0x80 → Form [b] b.toNat
  | two {b c : UInt8} : 0xC2 ≤ b.toNat → b.toNat < 0xE0 → isContinuation c = true →
      Form [b, c] (b.toNat % 32 * 64 + payload c)
  | three {b c d : UInt8} : 0xE0 ≤ b.toNat → b.toNat < 0xF0 → secondOk b c = true →
      isContinuation d = true → Form [b, c, d] ((b.toNat % 16 * 64 + payload c) * 64 + payload d)
  | four {b c d e : UInt8} : 0xF0 ≤ b.toNat → b.toNat < 0xF5 → secondOk b c = true →
      isContinuation d = true → isContinuation e = true →
      Form [b, c, d, e] (((b.toNat % 8 * 64 + payload c) * 64 + payload d) * 64 + payload e)

/-- What is read has one of the forms. -/
theorem form_of_sequence? {b : UInt8} {r : Bytes} {c : Char} {n : Nat}
    (h : sequence? b r = some (c, n)) : ∃ v, Form (b :: r.take n) v ∧ c = Char.ofNat v := by
  unfold sequence? at h
  simp only [UInt8.lt_iff_toNat_lt, UInt8.reduceToNat] at h
  -- the cases are those of the lead byte, from one byte to four
  split at h
  · rename_i hb
    obtain ⟨rfl, rfl⟩ := Prod.mk.inj (Option.some.inj h)
    exact ⟨_, .one hb, rfl⟩
  · split at h
    · exact absurd h (by simp)
    · split at h
      · split at h
        · split at h
          · rename_i hc
            obtain ⟨rfl, rfl⟩ := Prod.mk.inj (Option.some.inj h)
            exact ⟨_, .two (by omega) (by omega) hc, rfl⟩
          · exact absurd h (by simp)
        · exact absurd h (by simp)
      · split at h
        · split at h
          · split at h
            · rename_i hc
              obtain ⟨hsecond, hd⟩ := Bool.and_eq_true_iff.mp hc
              obtain ⟨rfl, rfl⟩ := Prod.mk.inj (Option.some.inj h)
              exact ⟨_, .three (by omega) (by omega) hsecond hd, rfl⟩
            · exact absurd h (by simp)
          · exact absurd h (by simp)
        · split at h
          · split at h
            · split at h
              · rename_i hc
                obtain ⟨hfront, he⟩ := Bool.and_eq_true_iff.mp hc
                obtain ⟨hsecond, hd⟩ := Bool.and_eq_true_iff.mp hfront
                obtain ⟨rfl, rfl⟩ := Prod.mk.inj (Option.some.inj h)
                exact ⟨_, .four (by omega) (by omega) hsecond hd he, rfl⟩
              · exact absurd h (by simp)
            · exact absurd h (by simp)
          · exact absurd h (by simp)

/-- Each of the forms is read, whatever follows. -/
theorem Form.sequence?_eq {b : UInt8} {p : Bytes} {v : Nat} (h : Form (b :: p) v) (r : Bytes) :
    sequence? b (p ++ r) = some (Char.ofNat v, p.length) := by
  unfold sequence?
  simp only [UInt8.lt_iff_toNat_lt, UInt8.reduceToNat]
  cases h with
  | one hb =>
    rw [if_pos hb]
    rfl
  | two hge hlt hc =>
    rw [if_neg (by omega), if_neg (by omega), if_pos hlt]
    simp [hc]
  | three hge hlt hc hd =>
    rw [if_neg (by omega), if_neg (by omega), if_neg (by omega), if_pos hlt]
    simp [hc, hd]
  | four hge hlt hc hd he =>
    rw [if_neg (by omega), if_neg (by omega), if_neg (by omega), if_neg (by omega), if_pos hlt]
    simp [hc, hd, he]

theorem toNat_byteOfNat {n : Nat} (h : n < 256) : (UInt8.ofNat n).toNat = n := by
  rw [UInt8.toNat_ofNat', Nat.mod_eq_of_lt h]

/-- The bytes of an encoded character have one of the forms, and their bits are those of the
    character. -/
theorem form_encode (c : Char) : Form (String.utf8EncodeChar c) c.toNat := by
  -- a character is not a surrogate, and not above the last one
  have hvalid : c.toNat.isValidChar := c.valid
  unfold Nat.isValidChar at hvalid
  simp only [String.utf8EncodeChar, Char.toNat_val]
  generalize c.toNat = v at hvalid
  -- by the length of the encoding; the bits are put together again by arithmetic
  split
  · have hb := toNat_byteOfNat (n := v) (by omega)
    have hform : Form [UInt8.ofNat v] (UInt8.ofNat v).toNat := .one (by omega)
    rwa [hb] at hform
  · split
    · have hb := toNat_byteOfNat (n := v / 64 % 32 + 192) (by omega)
      have hc := toNat_byteOfNat (n := v % 64 + 128) (by omega)
      generalize UInt8.ofNat (v / 64 % 32 + 192) = b at hb
      generalize UInt8.ofNat (v % 64 + 128) = c at hc
      have hform : Form [b, c] (b.toNat % 32 * 64 + payload c) :=
        .two (by omega) (by omega) (isContinuation_iff.mpr (by omega))
      rwa [payload, show b.toNat % 32 * 64 + c.toNat % 64 = v by omega] at hform
    · split
      · have hb := toNat_byteOfNat (n := v / 4096 % 16 + 224) (by omega)
        have hc := toNat_byteOfNat (n := v / 64 % 64 + 128) (by omega)
        have hd := toNat_byteOfNat (n := v % 64 + 128) (by omega)
        generalize UInt8.ofNat (v / 4096 % 16 + 224) = b at hb
        generalize UInt8.ofNat (v / 64 % 64 + 128) = c at hc
        generalize UInt8.ofNat (v % 64 + 128) = d at hd
        have hform : Form [b, c, d] ((b.toNat % 16 * 64 + payload c) * 64 + payload d) :=
          .three (by omega) (by omega) (secondOk_iff.mpr (by omega))
            (isContinuation_iff.mpr (by omega))
        rwa [payload, payload,
          show (b.toNat % 16 * 64 + c.toNat % 64) * 64 + d.toNat % 64 = v by omega] at hform
      · have hb := toNat_byteOfNat (n := v / 262144 % 8 + 240) (by omega)
        have hc := toNat_byteOfNat (n := v / 4096 % 64 + 128) (by omega)
        have hd := toNat_byteOfNat (n := v / 64 % 64 + 128) (by omega)
        have he := toNat_byteOfNat (n := v % 64 + 128) (by omega)
        generalize UInt8.ofNat (v / 262144 % 8 + 240) = b at hb
        generalize UInt8.ofNat (v / 4096 % 64 + 128) = c at hc
        generalize UInt8.ofNat (v / 64 % 64 + 128) = d at hd
        generalize UInt8.ofNat (v % 64 + 128) = e at he
        have hform : Form [b, c, d, e]
            (((b.toNat % 8 * 64 + payload c) * 64 + payload d) * 64 + payload e) :=
          .four (by omega) (by omega) (secondOk_iff.mpr (by omega))
            (isContinuation_iff.mpr (by omega)) (isContinuation_iff.mpr (by omega))
        rwa [payload, payload, payload,
          show ((b.toNat % 8 * 64 + c.toNat % 64) * 64 + d.toNat % 64) * 64 + e.toNat % 64 = v by
            omega] at hform

/-- The number behind a form is that of a character: no overlong form is a form, and no surrogate
    has one. -/
theorem Form.isValidChar {p : Bytes} {v : Nat} (h : Form p v) : v.isValidChar := by
  unfold Nat.isValidChar
  cases h with
  | one hb => omega
  | two hge hlt hc => unfold payload; omega
  -- the second byte of such forms rules out surrogates, and with four bytes what is too large
  | three hge hlt hc hd =>
    rw [secondOk_iff] at hc
    unfold payload
    omega
  | four hge hlt hc hd he =>
    rw [secondOk_iff] at hc
    unfold payload
    omega

/-- The bytes of the form of a number. -/
def formOf (v : Nat) : List Nat :=
  if v < 0x80 then [v]
  else if v < 0x800 then [0xC0 + v / 64, 0x80 + v % 64]
  else if v < 0x10000 then [0xE0 + v / 4096, 0x80 + v / 64 % 64, 0x80 + v % 64]
  else [0xF0 + v / 262144, 0x80 + v / 4096 % 64, 0x80 + v / 64 % 64, 0x80 + v % 64]

/-- The bytes of a form are given by its number. Here the bounds on lead and second bytes are
    used. -/
theorem Form.map_toNat {p : Bytes} {v : Nat} (h : Form p v) : p.map UInt8.toNat = formOf v := by
  unfold formOf
  cases h with
  | one hb =>
    rw [if_pos hb]
    rfl
  | @two b c hge hlt hc =>
    rw [isContinuation_iff] at hc
    unfold payload
    rw [if_neg (by omega), if_pos (by omega)]
    simp only [List.map_cons, List.map_nil, List.cons.injEq, and_true]
    omega
  | @three b c d hge hlt hc hd =>
    rw [secondOk_iff] at hc
    rw [isContinuation_iff] at hd
    unfold payload
    rw [if_neg (by omega), if_neg (by omega), if_pos (by omega)]
    simp only [List.map_cons, List.map_nil, List.cons.injEq, and_true]
    omega
  | @four b c d e hge hlt hc hd he =>
    rw [secondOk_iff] at hc
    rw [isContinuation_iff] at hd he
    unfold payload
    rw [if_neg (by omega), if_neg (by omega), if_neg (by omega)]
    simp only [List.map_cons, List.map_nil, List.cons.injEq, and_true]
    omega

/-- No character has two forms. -/
theorem Form.bytes_eq {p q : Bytes} {v : Nat} (hp : Form p v) (hq : Form q v) : p = q := by
  have hmap : p.map UInt8.toNat = q.map UInt8.toNat := by rw [hp.map_toNat, hq.map_toNat]
  exact (List.map_inj_right fun b c h => UInt8.toNat_inj.mp h).mp hmap

/-- The character of a valid number has that number. -/
theorem toNat_charOfNat {v : Nat} (h : v.isValidChar) : (Char.ofNat v).toNat = v := by
  rw [Char.ofNat, dif_pos h]
  rfl

/-- What is read as a character is the encoding of that character. -/
theorem encode_of_sequence? {b : UInt8} {r : Bytes} {c : Char} {n : Nat}
    (h : sequence? b r = some (c, n)) : String.utf8EncodeChar c = b :: r.take n := by
  obtain ⟨v, hform, rfl⟩ := form_of_sequence? h
  have hwritten := form_encode (Char.ofNat v)
  rw [toNat_charOfNat hform.isValidChar] at hwritten
  exact hwritten.bytes_eq hform

/-- The encoding of a character is read as that character, whatever follows. -/
theorem sequence?_encode {c : Char} {b : UInt8} {p : Bytes} (h : String.utf8EncodeChar c = b :: p)
    (r : Bytes) : sequence? b (p ++ r) = some (c, p.length) := by
  have hform := form_encode c
  rw [h] at hform
  rw [hform.sequence?_eq, Char.ofNat_toNat]

/-- Nothing is read where no encoded character begins. -/
theorem sequence?_eq_none_iff {b : UInt8} {r : Bytes} :
    sequence? b r = none ↔ ∀ c, ¬ String.utf8EncodeChar c <+: b :: r := by
  constructor
  · -- an encoded character would have been read
    rintro hnone c ⟨t, ht⟩
    obtain ⟨a, p, hp⟩ := List.exists_cons_of_ne_nil (String.utf8EncodeChar_ne_nil (c := c))
    rw [hp, List.cons_append] at ht
    obtain ⟨rfl, rfl⟩ := List.cons.inj ht
    rw [sequence?_encode hp] at hnone
    exact absurd hnone (by simp)
  · intro hno
    cases hseq : sequence? b r with
    | none => rfl
    | some cn =>
      have henc := encode_of_sequence? hseq
      exact absurd ⟨r.drop cn.2, by rw [henc]; simp⟩ (hno cn.1)

/-! ## Characters of a text -/

/-- The bytes of a character that was read are passed over. -/
theorem charsFrom_skip (p r : Bytes) : charsFrom p.length (p ++ r) = charsFrom 0 r := by
  induction p with
  | nil => rfl
  | cons b p ih => exact ih

/-- An encoded character reads as itself. -/
theorem chars_encode_append (c : Char) (r : Bytes) :
    chars (String.utf8EncodeChar c ++ r) = c :: chars r := by
  obtain ⟨b, p, hp⟩ := List.exists_cons_of_ne_nil (String.utf8EncodeChar_ne_nil (c := c))
  rw [hp, List.cons_append, chars, charsFrom, sequence?_encode hp]
  show c :: charsFrom p.length (p ++ r) = c :: chars r
  rw [charsFrom_skip]
  rfl

/-- A byte at which no encoded character begins reads as the replacement. -/
theorem chars_stray {b : UInt8} {r : Bytes} (h : sequence? b r = none) :
    chars (b :: r) = replacement :: chars r := by
  rw [chars, charsFrom, h]
  rfl

/-- Encoded characters read as themselves. -/
theorem chars_encodeAll_append (cs : List Char) (r : Bytes) :
    chars (cs.flatMap String.utf8EncodeChar ++ r) = cs ++ chars r := by
  induction cs with
  | nil => rfl
  | cons c cs ih =>
    rw [List.flatMap_cons, List.append_assoc, chars_encode_append, ih, List.cons_append]

/-- A string reads as itself. -/
theorem chars_ofString (s : String) : chars (Bytes.ofString s) = s.toList := by
  have hall := chars_encodeAll_append s.toList []
  rwa [List.append_nil, show chars [] = [] from rfl, List.append_nil] at hall

/-- Texts in UTF-8 can be cut behind any of their characters. -/
theorem seam_encoded (cs : List Char) (r : Bytes) : Seam (cs.flatMap String.utf8EncodeChar) r := by
  have hall := chars_encodeAll_append cs []
  rw [List.append_nil] at hall
  rw [Seam, chars_encodeAll_append, hall]
  simp [chars, charsFrom]

/-! ## Pieces of a text -/

/-- The UTF-16 code units of a character, a pair of surrogates above U+FFFF. -/
def utf16 (c : Char) : List UInt16 :=
  if c.toNat < 0x10000 then [UInt16.ofNat c.toNat]
  else [UInt16.ofNat (0xD800 + (c.toNat - 0x10000) / 0x400),
    UInt16.ofNat (0xDC00 + (c.toNat - 0x10000) % 0x400)]

example : utf16 '😀' = [0xD83D, 0xDE00] := by decide

/-- A character in UTF-8, or a byte at which none begins. -/
inductive Piece where
  | char (c : Char)
  | stray (b : UInt8)
  deriving DecidableEq, Repr

namespace Piece

/-- What the piece reads as. -/
def read : Piece → Char
  | .char c => c
  | .stray _ => replacement

end Piece

/-- The text consists of these pieces. -/
inductive Reads : Bytes → List Piece → Prop where
  | nil : Reads [] []
  | char {r : Bytes} {ps : List Piece} (c : Char) :
      Reads r ps → Reads (String.utf8EncodeChar c ++ r) (.char c :: ps)
  | stray {r : Bytes} {ps : List Piece} (b : UInt8) : (∀ c, ¬ String.utf8EncodeChar c <+: b :: r) →
      Reads r ps → Reads (b :: r) (.stray b :: ps)

/-- Every text consists of pieces. -/
theorem exists_reads (s : Bytes) : ∃ ps, Reads s ps := by
  match s with
  | [] => exact ⟨[], .nil⟩
  | b :: r =>
    -- the first piece is a stray byte, or a character of which all bytes are taken
    cases hseq : sequence? b r with
    | none =>
      obtain ⟨ps, hps⟩ := exists_reads r
      exact ⟨_, .stray b (sequence?_eq_none_iff.mp hseq) hps⟩
    | some cn =>
      obtain ⟨ps, hps⟩ := exists_reads (r.drop cn.2)
      refine ⟨.char cn.1 :: ps, ?_⟩
      have hreads := Reads.char cn.1 hps
      rwa [encode_of_sequence? hseq, List.cons_append, List.take_append_drop] at hreads
termination_by s.length
decreasing_by
  · simp
  · rw [List.length_drop, List.length_cons]
    omega

/-- A text reads as its pieces do. -/
theorem Reads.chars_eq {s : Bytes} {ps : List Piece} (h : Reads s ps) :
    chars s = ps.map Piece.read := by
  induction h with
  | nil => rfl
  | char c hr ih => rw [chars_encode_append, ih, List.map_cons, Piece.read]
  | stray b hno hr ih =>
    rw [chars_stray (sequence?_eq_none_iff.mpr hno), ih, List.map_cons, Piece.read]

/-- The width of a text is the number of UTF-16 code units of its pieces. -/
theorem Reads.units16_eq {s : Bytes} {ps : List Piece} (h : Reads s ps) :
    units16 s = (ps.flatMap fun p => utf16 p.read).length := by
  have hwidth : ∀ c, width16 c = (utf16 c).length := by
    intro c
    unfold width16 utf16
    rw [Char.toNat_val]
    by_cases hc : c.toNat < 0x10000
    · rw [if_neg (by omega), if_pos hc]
      rfl
    · rw [if_pos (by omega), if_neg hc]
      rfl
  rw [units16, h.chars_eq]
  clear h
  induction ps with
  | nil => rfl
  | cons p ps ih =>
    rw [List.map_cons, totalWidth16, ih, hwidth, List.flatMap_cons, List.length_append]

end MarkupLint.Utf8
