/-
  From byte offsets to places. `place_ofText` says what a place is: the number of newlines before
  the offset, and the width of what stands between the start of the line and the offset.

  A column is the width of a text that was cut off at an offset, and cutting can change what the
  bytes before the cut read as. It does not next to an ASCII byte, on either side (`Seam`): such a
  byte is never part of a longer sequence.
-/
import MarkupLint.Markup.Source

namespace MarkupLint

/-! ## Cutting texts -/

namespace Utf8

/-- Cutting between `p` and `r` changes no character. -/
def Seam (p r : Bytes) : Prop := chars (p ++ r) = chars p ++ chars r

/-- ASCII bytes continue nothing. -/
theorem isContinuation_of_ascii {a : UInt8} (ha : a < 0x80) : isContinuation a = false := by
  simp only [isContinuation, Bool.and_eq_false_iff, decide_eq_false_iff_not]
  exact .inl (UInt8.not_le.mpr ha)

/-- ASCII bytes are never the second byte of a character, whatever the first one is. -/
theorem secondOk_of_ascii (b : UInt8) {a : UInt8} (ha : a < 0x80) : secondOk b a = false := by
  have hlow : ∀ {x : UInt8}, 0x80 ≤ x → ¬ x ≤ a := fun hx hle =>
    UInt8.not_le.mpr ha (UInt8.le_trans hx hle)
  unfold secondOk
  split
  · simp [hlow (x := 0xA0) (by decide)]
  · split
    · simp [hlow (x := 0x80) (by decide)]
    · split
      · simp [hlow (x := 0x90) (by decide)]
      · split
        · simp [hlow (x := 0x80) (by decide)]
        · exact isContinuation_of_ascii ha

/-- An ASCII byte behind a text continues no sequence of it. -/
theorem sequence?_append_ascii (b : UInt8) (p r : Bytes) {a : UInt8} (ha : a < 0x80) :
    sequence? b (p ++ a :: r) = sequence? b p := by
  have hcont := isContinuation_of_ascii ha
  have hsecond := secondOk_of_ascii b ha
  -- by the number of bytes that a sequence takes, and by how many of them are there
  unfold sequence?
  split
  · rfl
  · split
    · rfl
    · split
      · cases p with
        | nil => simp [hcont]
        | cons c p => rfl
      · split
        · match p with
          | [] => cases r <;> simp [hsecond]
          | [c] => simp [hcont]
          | c :: d :: p => rfl
        · split
          · match p with
            | [] => rcases r with _ | ⟨d, _ | ⟨e, r⟩⟩ <;> simp [hsecond]
            | [c] => cases r <;> simp [hcont]
            | [c, d] => simp [hcont]
            | c :: d :: e :: p => rfl
          · rfl

/-- A sequence takes no more bytes than there are. -/
theorem sequence?_length {b : UInt8} {p : Bytes} {c : Char} {n : Nat}
    (h : sequence? b p = some (c, n)) : n ≤ p.length := by
  unfold sequence? at h
  split at h
  · obtain ⟨-, rfl⟩ := Prod.mk.inj (Option.some.inj h)
    exact Nat.zero_le _
  · split at h
    · exact absurd h nofun
    · split at h
      · split at h
        · split at h
          · obtain ⟨-, rfl⟩ := Prod.mk.inj (Option.some.inj h)
            simp
          · exact absurd h nofun
        · exact absurd h nofun
      · split at h
        · split at h
          · split at h
            · obtain ⟨-, rfl⟩ := Prod.mk.inj (Option.some.inj h)
              simp
            · exact absurd h nofun
          · exact absurd h nofun
        · split at h
          · split at h
            · split at h
              · obtain ⟨-, rfl⟩ := Prod.mk.inj (Option.some.inj h)
                simp
              · exact absurd h nofun
            · exact absurd h nofun
          · exact absurd h nofun

/-- A text is read up to an ASCII byte as if it ended there. -/
theorem charsFrom_append_ascii (k : Nat) (p r : Bytes) {a : UInt8} (ha : a < 0x80)
    (hk : k ≤ p.length) : charsFrom k (p ++ a :: r) = charsFrom k p ++ charsFrom 0 (a :: r) := by
  induction p generalizing k with
  | nil =>
    obtain rfl : k = 0 := Nat.le_zero.mp hk
    rfl
  | cons b p ih =>
    -- bytes of a sequence that has been read are passed over, and it ends before the ASCII byte
    cases k with
    | succ k => exact ih k (Nat.le_of_succ_le_succ hk)
    | zero =>
      rw [List.cons_append, charsFrom, sequence?_append_ascii b p r ha, charsFrom]
      cases hseq : sequence? b p with
      | none => simp only [List.cons_append, ih 0 (Nat.zero_le _)]
      | some cn =>
        obtain ⟨c, n⟩ := cn
        simp only [List.cons_append, ih n (sequence?_length hseq)]

theorem seam_nil (r : Bytes) : Seam [] r := rfl

/-- Cutting before an ASCII byte changes nothing. -/
theorem seam_before_ascii (p r : Bytes) {a : UInt8} (ha : a < 0x80) : Seam p (a :: r) :=
  charsFrom_append_ascii 0 p r ha (Nat.zero_le _)

/-- An ASCII byte is read as the character of its number. -/
theorem chars_cons_ascii {a : UInt8} (ha : a < 0x80) (r : Bytes) :
    chars (a :: r) = Char.ofNat a.toNat :: chars r := by
  have hseq : sequence? a r = some (Char.ofNat a.toNat, 0) := by
    unfold sequence?
    rw [if_pos ha]
  rw [chars, charsFrom, hseq]
  rfl

/-- Cutting behind an ASCII byte changes nothing. -/
theorem seam_behind_ascii (p r : Bytes) {a : UInt8} (ha : a < 0x80) : Seam (p ++ [a]) r := by
  have hlong := seam_before_ascii p r ha
  have hshort := seam_before_ascii p [] ha
  rw [Seam, chars_cons_ascii ha] at hlong hshort
  rw [Seam, List.append_assoc, List.singleton_append, hlong, hshort, List.append_assoc]
  rfl

/-- Widths of characters add up. -/
theorem totalWidth16_append (cs ds : List Char) :
    totalWidth16 (cs ++ ds) = totalWidth16 cs + totalWidth16 ds := by
  induction cs with
  | nil => simp [totalWidth16]
  | cons c cs ih =>
    rw [List.cons_append, totalWidth16, totalWidth16, ih]
    omega

theorem one_le_width16 (c : Char) : 1 ≤ width16 c := by
  unfold width16
  split <;> omega

/-- No text but the empty one is without width. -/
theorem units16_pos {s : Bytes} (hs : s ≠ []) : 0 < units16 s := by
  obtain ⟨b, r, rfl⟩ := List.exists_cons_of_ne_nil hs
  -- the first byte reads as a character, be it the replacement
  have hfirst : ∃ c cs, chars (b :: r) = c :: cs := by
    unfold chars charsFrom
    split
    · exact ⟨_, _, rfl⟩
    · exact ⟨_, _, rfl⟩
  obtain ⟨c, cs, hcs⟩ := hfirst
  have hwidth := one_le_width16 c
  rw [units16, hcs, totalWidth16]
  omega

/-- Widths of texts add up at seams. -/
theorem Seam.units16_append {p r : Bytes} (h : Seam p r) :
    units16 (p ++ r) = units16 p + units16 r := by
  rw [units16, h, totalWidth16_append]
  rfl

/-- A text that goes on behind a seam is wider than its part before it. -/
theorem Seam.units16_lt {p r : Bytes} (h : Seam p r) (hr : r ≠ []) :
    units16 p < units16 (p ++ r) := by
  have hpos := units16_pos hr
  have hsum := h.units16_append
  omega

end Utf8

/-! ## Lines -/

namespace Markup

open Bytes

variable {text line : Bytes} {offset start base : Nat}

/-- The line stands at `start` in the text, and behind it comes a newline or nothing. -/
structure LineAt (text : Bytes) (start : Nat) (line : Bytes) : Prop where
  piece : line <+: text.drop start
  ends : ∀ b, text[start + line.length]? = some b → b = newline

/-- A byte in front of the text moves its lines on. -/
theorem LineAt.cons (h : LineAt text start line) (b : UInt8) :
    LineAt (b :: text) (start + 1) line := by
  refine ⟨h.piece, fun a ha => h.ends a ?_⟩
  rwa [Nat.add_right_comm, List.getElem?_cons_succ] at ha

/-- A byte in front of the first line makes it longer, unless it is a newline. -/
theorem LineAt.grow (h : LineAt text 0 line) (b : UInt8) : LineAt (b :: text) 0 (b :: line) := by
  refine ⟨List.cons_prefix_cons.mpr ⟨rfl, h.piece⟩, fun a ha => h.ends a ?_⟩
  rwa [List.length_cons, ← Nat.add_assoc, List.getElem?_cons_succ] at ha

/-- There is at least one line. -/
theorem exists_splitAt (sep : UInt8) (s : Bytes) : ∃ p ps, splitAt sep s = p :: ps := by
  cases s with
  | nil => exact ⟨[], [], rfl⟩
  | cons b r =>
    unfold splitAt
    split
    · exact ⟨_, _, rfl⟩
    · split
      · exact ⟨_, _, rfl⟩
      · exact ⟨_, _, rfl⟩

/-- The line of an offset: it has as many lines before it as there are newlines before the
    offset. -/
theorem exists_line (text : Bytes) (offset base : Nat) (h : offset ≤ text.length) :
    ∃ line start,
      (splitAt newline text)[(text.take offset).count newline]? = some line ∧
      (startsFrom base (splitAt newline text))[(text.take offset).count newline]? =
        some (base + start) ∧
      start ≤ offset ∧ offset ≤ start + line.length ∧ LineAt text start line := by
  -- the induction is on the text; `base` is where it begins, and rises by one with each byte
  induction text generalizing offset base with
  | nil =>
    obtain rfl : offset = 0 := Nat.le_zero.mp h
    exact ⟨[], 0, rfl, rfl, Nat.le_refl _, Nat.le_refl _, List.nil_prefix,
      fun b hb => absurd hb nofun⟩
  | cons b r ih =>
    by_cases hb : b = newline
    · -- a newline in front: an empty first line, and all others one further down
      subst hb
      have hsplit : splitAt newline (newline :: r) = [] :: splitAt newline r := by simp [splitAt]
      cases offset with
      | zero =>
        refine ⟨[], 0, by simp [hsplit], by simp [hsplit, startsFrom], Nat.le_refl _, Nat.le_refl _,
          List.nil_prefix, fun a ha => ?_⟩
        exact (Option.some.inj ha).symm
      | succ o =>
        obtain ⟨line, start, hline, hstart, hle, hge, hat⟩ :=
          ih o (base + 1) (Nat.le_of_succ_le_succ h)
        refine ⟨line, start + 1, ?_, ?_, by omega, by omega, hat.cons newline⟩
        · rw [hsplit, List.take_succ_cons, List.count_cons_self, List.getElem?_cons_succ]
          exact hline
        · rw [hsplit, List.take_succ_cons, List.count_cons_self, startsFrom,
            List.getElem?_cons_succ]
          rw [List.length_nil, Nat.add_zero, hstart]
          congr 1
          omega
    · -- any other byte belongs to the first line, and no line changes its number
      obtain ⟨p, ps, hps⟩ := exists_splitAt newline r
      have hsplit : splitAt newline (b :: r) = (b :: p) :: ps := by simp [splitAt, hb, hps]
      -- the first line of the rest, which `b` makes longer
      have hfirst : LineAt r 0 p := by
        obtain ⟨line, start, hline, hstart, hle, hge, hat⟩ := ih 0 0 (Nat.zero_le _)
        rw [hps] at hline
        obtain rfl : p = line := Option.some.inj hline
        obtain rfl : start = 0 := Nat.le_zero.mp hle
        exact hat
      cases offset with
      | zero =>
        exact ⟨b :: p, 0, by simp [hsplit], by simp [hsplit, startsFrom], Nat.le_refl _,
          Nat.zero_le _, hfirst.grow b⟩
      | succ o =>
        obtain ⟨line, start, hline, hstart, hle, hge, hat⟩ :=
          ih o (base + 1) (Nat.le_of_succ_le_succ h)
        rw [hsplit, List.take_succ_cons, List.count_cons_of_ne hb]
        rw [hps] at hline hstart
        -- the offset lies on the first line, which starts with the byte, or on a later one
        cases hk : (r.take o).count newline with
        | zero =>
          rw [hk] at hline hstart
          obtain rfl : p = line := Option.some.inj hline
          obtain rfl : start = 0 := by
            have := Option.some.inj hstart
            omega
          refine ⟨b :: p, 0, rfl, rfl, Nat.zero_le _, ?_, hfirst.grow b⟩
          rw [List.length_cons]
          omega
        | succ k =>
          rw [hk, startsFrom, List.getElem?_cons_succ] at hstart
          rw [hk, List.getElem?_cons_succ] at hline
          refine ⟨line, start + 1, hline, ?_, by omega, by omega, hat.cons b⟩
          rw [startsFrom, List.getElem?_cons_succ, List.length_cons]
          have hshift : base + (p.length + 1) + 1 = base + 1 + p.length + 1 := by omega
          rw [hshift, hstart]
          congr 1
          omega

/-- A line starts behind the one before it and its newline. -/
theorem startsFrom_succ {ls : List Bytes} {k x y : Nat} {l : Bytes} (hl : ls[k]? = some l)
    (hx : (startsFrom base ls)[k]? = some x) (hy : (startsFrom base ls)[k + 1]? = some y) :
    y = x + l.length + 1 := by
  induction ls generalizing base k with
  | nil => exact absurd hl nofun
  | cons m ls ih =>
    rw [startsFrom, List.getElem?_cons_succ] at hy
    cases k with
    | zero =>
      obtain rfl : m = l := Option.some.inj hl
      obtain rfl : base = x := Option.some.inj hx
      cases ls with
      | nil => exact absurd hy nofun
      | cons m' ls => exact (Option.some.inj hy).symm
    | succ k =>
      rw [startsFrom, List.getElem?_cons_succ] at hx
      exact ih hl hx hy

theorem le_of_mem_startsFrom {ls : List Bytes} {x : Nat} (h : x ∈ startsFrom base ls) :
    base ≤ x := by
  induction ls generalizing base with
  | nil => exact absurd h List.not_mem_nil
  | cons l ls ih =>
    rcases List.mem_cons.mp h with rfl | h
    · exact Nat.le_refl _
    · have hle := ih h
      omega

/-- Starts of lines rise. -/
theorem startsFrom_sorted (ls : List Bytes) : (startsFrom base ls).Pairwise (· < ·) := by
  induction ls generalizing base with
  | nil => exact .nil
  | cons l ls ih =>
    refine List.pairwise_cons.mpr ⟨fun x hx => ?_, ih⟩
    have hle := le_of_mem_startsFrom hx
    omega

theorem startsFrom_le {ls : List Bytes} {i j x y : Nat} (hx : (startsFrom base ls)[i]? = some x)
    (hy : (startsFrom base ls)[j]? = some y) (hij : i ≤ j) : x ≤ y := by
  obtain ⟨hi, rfl⟩ := List.getElem?_eq_some_iff.mp hx
  obtain ⟨hj, rfl⟩ := List.getElem?_eq_some_iff.mp hy
  rcases Nat.lt_or_eq_of_le hij with hlt | rfl
  · exact Nat.le_of_lt (List.pairwise_iff_getElem.mp (startsFrom_sorted ls) i j hi hj hlt)
  · exact Nat.le_refl _

namespace Source

/-- The binary search ends at a line that starts at the offset or before, and the next does not. -/
theorem searchLine_spec (starts : Array Nat) (offset lo hi : Nat) (hlo : lo < hi)
    (hhi : hi ≤ starts.size) (hstart : starts[lo]?.getD 0 ≤ offset)
    (hnext : hi = starts.size ∨ offset < starts[hi]?.getD 0) :
    searchLine starts offset lo hi < starts.size ∧
    starts[searchLine starts offset lo hi]?.getD 0 ≤ offset ∧
    (searchLine starts offset lo hi + 1 = starts.size ∨
      offset < starts[searchLine starts offset lo hi + 1]?.getD 0) := by
  fun_induction searchLine starts offset lo hi with
  | case1 lo hi hgap mid hmid ih => exact ih (by omega) hhi hmid hnext
  | case2 lo hi hgap mid hmid ih => exact ih (by omega) (by omega) hstart (.inr (by omega))
  -- one line is left
  | case3 lo hi hgap =>
    obtain rfl : hi = lo + 1 := by omega
    exact ⟨by omega, hstart, hnext⟩

/-- The line of an offset starts at the offset or before, and the next line does not. -/
theorem lineAt_spec (text : Bytes) (offset : Nat) :
    (ofText text).lineAt offset < (ofText text).starts.size ∧
    (ofText text).starts[(ofText text).lineAt offset]?.getD 0 ≤ offset ∧
    ((ofText text).lineAt offset + 1 = (ofText text).starts.size ∨
      offset < (ofText text).starts[(ofText text).lineAt offset + 1]?.getD 0) := by
  obtain ⟨p, ps, hps⟩ := exists_splitAt newline text
  have hzero : (ofText text).starts[0]?.getD 0 ≤ offset := by simp [ofText, hps, startsFrom]
  have hsize : 0 < (ofText text).starts.size := by simp [ofText, hps, startsFrom]
  exact searchLine_spec _ offset 0 _ hsize (Nat.le_refl _) hzero (.inl rfl)

/-- An offset lies on a line before line `k` just when it lies before the start of line `k`. -/
theorem lineAt_lt_iff {k : Nat} (hstart : (ofText text).starts[k]? = some start) :
    (ofText text).lineAt offset < k ↔ offset < start := by
  obtain ⟨hlt, hbefore, hbehind⟩ := lineAt_spec text offset
  generalize (ofText text).lineAt offset = l at *
  have hget : ∀ i : Nat, (ofText text).starts[i]? = (startsFrom 0 (splitAt newline text))[i]? := by
    simp [ofText]
  have hk := (Array.getElem?_eq_some_iff.mp hstart).1
  constructor
  · intro hlk
    obtain ⟨y, hy⟩ : ∃ y, (ofText text).starts[l + 1]? = some y :=
      ⟨_, Array.getElem?_eq_getElem (by omega)⟩
    have hle : y ≤ start := startsFrom_le (hget _ ▸ hy) (hget _ ▸ hstart) hlk
    rw [hy, Option.getD_some] at hbehind
    omega
  · intro hoffset
    obtain ⟨x, hx⟩ : ∃ x, (ofText text).starts[l]? = some x := ⟨_, Array.getElem?_eq_getElem hlt⟩
    rw [hx, Option.getD_some] at hbefore
    rcases Nat.lt_or_ge l k with hlk | hkl
    · exact hlk
    · have hle : start ≤ x := startsFrom_le (hget _ ▸ hstart) (hget _ ▸ hx) hkl
      omega

/-- An offset lies on line `k` when the line starts there or before and the next line does not. -/
theorem lineAt_eq {k : Nat} (hstart : (ofText text).starts[k]? = some start) (hle : start ≤ offset)
    (hnext : ∀ y, (ofText text).starts[k + 1]? = some y → offset < y) :
    (ofText text).lineAt offset = k := by
  have hfrom : ¬ (ofText text).lineAt offset < k := by
    rw [lineAt_lt_iff hstart]
    omega
  -- the next line starts behind the offset, or there is none
  have hupTo : (ofText text).lineAt offset < k + 1 := by
    cases hy : (ofText text).starts[k + 1]? with
    | none =>
      exact Nat.lt_of_lt_of_le (lineAt_spec text offset).1 (Array.getElem?_eq_none_iff.mp hy)
    | some y => exact (lineAt_lt_iff hy).mpr (hnext y hy)
  omega

/-- The line of an offset is the number of newlines before it. -/
theorem lineAt_ofText (h : offset ≤ text.length) :
    (ofText text).lineAt offset = (text.take offset).count newline := by
  obtain ⟨line, start, hline, hstart, hle, hge, -⟩ := exists_line text offset 0 h
  rw [Nat.zero_add] at hstart
  have hget : ∀ i : Nat, (ofText text).starts[i]? = (startsFrom 0 (splitAt newline text))[i]? := by
    simp [ofText]
  refine lineAt_eq ((hget _).trans hstart) hle fun y hy => ?_
  have hsucc : y = start + line.length + 1 := startsFrom_succ hline hstart (hget _ ▸ hy)
  omega

/-- Where a line starts: the text goes on with the line, and stands at its beginning or behind a
    newline. -/
theorem line_at_start {k : Nat} (hline : (ofText text).lines[k]? = some line)
    (hstart : (ofText text).starts[k]? = some start) (h : start ≤ text.length) :
    line <+: text.drop start ∧ (0 < start → text[start - 1]? = some newline) := by
  have hget : ∀ i : Nat, (ofText text).starts[i]? = (startsFrom 0 (splitAt newline text))[i]? := by
    simp [ofText]
  have hline' : (splitAt newline text)[k]? = some line := by simpa [ofText] using hline
  have hk : (text.take start).count newline = k := by
    rw [← lineAt_ofText h]
    refine lineAt_eq hstart (Nat.le_refl _) fun y hy => ?_
    have hsucc : y = start + line.length + 1 :=
      startsFrom_succ hline' (hget _ ▸ hstart) (hget _ ▸ hy)
    omega
  refine ⟨?_, fun hpos => ?_⟩
  · obtain ⟨l, x, hl, hx, -, -, hat⟩ := exists_line text start 0 h
    rw [hk] at hl hx
    obtain rfl : line = l := Option.some.inj (hline'.symm.trans hl)
    rw [← hget, hstart, Nat.zero_add] at hx
    obtain rfl := Option.some.inj hx
    exact hat.piece
  · -- the byte before the start lies on an earlier line
    have hbefore : (text.take (start - 1)).count newline < k := by
      rw [← lineAt_ofText (by omega), lineAt_lt_iff hstart]
      omega
    have hlt : start - 1 < text.length := by omega
    have htake : text.take start = text.take (start - 1) ++ [text[start - 1]] := by
      rw [← List.take_succ_eq_append_getElem hlt, Nat.sub_add_cancel hpos]
    rw [List.getElem?_eq_getElem hlt]
    by_cases hb : text[start - 1] = newline
    · rw [hb]
    · rw [htake, List.count_append, List.count_cons_of_ne hb, List.count_nil] at hk
      omega

/-- **What a place is**: its line holds the offset, and its column is the width of what stands
    before the offset on that line. -/
theorem place_ofText (h : offset ≤ text.length) :
    ∃ line start, (splitAt newline text)[(text.take offset).count newline]? = some line ∧
      start ≤ offset ∧ offset ≤ start + line.length ∧ LineAt text start line ∧
      (ofText text).place offset =
        ⟨(text.take offset).count newline, Utf8.units16 (line.take (offset - start))⟩ := by
  obtain ⟨line, start, hline, hstart, hle, hge, hat⟩ := exists_line text offset 0 h
  refine ⟨line, start, hline, hle, hge, hat, ?_⟩
  have hlines : (ofText text).lines[(text.take offset).count newline]? = some line := by
    simpa [ofText] using hline
  have hstarts : (ofText text).starts[(text.take offset).count newline]? = some start := by
    simpa [ofText] using hstart
  simp [place, lineAt_ofText h, hlines, hstarts]

/-- An offset that lies on a byte of a line, next to an ASCII byte on one side or at the start of
    the line, has its place on that line, and not at its end. -/
theorem place_inside {b : UInt8} (hb : text[offset]? = some b) (hnewline : b ≠ newline)
    (hseam : b < 0x80 ∨ ∃ a, a < 0x80 ∧ text[offset - 1]? = some a ∧ 0 < offset) :
    ∃ line, (splitAt newline text)[((ofText text).place offset).line]? = some line ∧
      ((ofText text).place offset).column < Utf8.units16 line := by
  have hlt := (List.getElem?_eq_some_iff.mp hb).1
  obtain ⟨l, start, hline, hle, hge, hat, hplace⟩ := place_ofText (Nat.le_of_lt hlt)
  have hbyte : ∀ i : Nat, i < l.length → l[i]? = text[start + i]? := by
    intro i hi
    obtain ⟨r, hr⟩ := hat.piece
    rw [← List.getElem?_drop, ← hr, List.getElem?_append_left hi]
  -- the line does not end at the offset, for there a newline would stand
  have hinside : offset - start < l.length := by
    rcases Nat.lt_or_eq_of_le hge with hlt | rfl
    · omega
    · exact absurd (hat.ends b hb) hnewline
  have hhead : l[offset - start]? = some b := by
    rw [hbyte _ hinside, Nat.add_sub_cancel' hle]
    exact hb
  refine ⟨l, by rw [hplace]; exact hline, ?_⟩
  rw [hplace]
  show Utf8.units16 (l.take (offset - start)) < Utf8.units16 l
  have hcut : l = l.take (offset - start) ++ b :: l.drop (offset - start + 1) := by
    obtain ⟨hi, rfl⟩ := List.getElem?_eq_some_iff.mp hhead
    rw [← List.drop_eq_getElem_cons hi, List.take_append_drop]
  have hs : Utf8.Seam (l.take (offset - start)) (b :: l.drop (offset - start + 1)) := by
    rcases hseam with hascii | ⟨a, ha, hbefore, hpos⟩
    · exact Utf8.seam_before_ascii _ _ hascii
    · rcases Nat.lt_or_eq_of_le hle with hlt | rfl
      · -- the byte before the offset is the last one of the part that is cut off
        obtain ⟨m, hm⟩ : ∃ m, offset - start = m + 1 := ⟨offset - start - 1, by omega⟩
        have hlast : l[m]? = some a := by
          rw [hbyte m (by omega), ← hbefore]
          congr 1
          omega
        obtain ⟨hi, rfl⟩ := List.getElem?_eq_some_iff.mp hlast
        rw [hm, List.take_succ_eq_append_getElem hi]
        exact Utf8.seam_behind_ascii _ _ ha
      · rw [Nat.sub_self, List.take_zero]
        exact Utf8.seam_nil _
  have hwidth := hs.units16_lt (List.cons_ne_nil _ _)
  rwa [← hcut] at hwidth

end Source
end Markup
end MarkupLint
