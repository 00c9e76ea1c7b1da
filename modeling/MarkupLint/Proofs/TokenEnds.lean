/-
  Where tokens end. Between two tokens either the first one ends in `>` or the second one begins
  with `<` (`endsPiece_of_tokensFrom`), so a token that begins at the start of a line begins with
  `<`, unless it is the first one of the document. Tokens are not empty, and what is neither text
  nor the rest of a tag begins with `<` as well.

  For each function that finds the length of a piece, one lemma says where it stops (`EndsPiece`).
-/
import MarkupLint.Proofs.TokenPieces

namespace MarkupLint.Markup

open Ascii

/-! ## Pieces -/

/-- The piece of `n` bytes at the front of `s` ends in `>`, or what follows it begins with `<` or is
    empty. -/
def EndsPiece (s : Bytes) (n : Nat) : Prop :=
  (s.take n).getLast? = some greaterThan ∨ ∀ b ∈ (s.drop n).head?, b = lessThan

section Pieces

variable {s r : Bytes} {n m : Nat}

/-- Three ways to end: with the text, before a `<`, and after a `>`. -/
theorem endsPiece_all (s : Bytes) : EndsPiece s s.length := by
  refine .inr fun b hb => ?_
  rw [List.drop_length] at hb
  exact absurd hb nofun

theorem endsPiece_none (r : Bytes) : EndsPiece (lessThan :: r) 0 :=
  .inr fun _ hb => (Option.some.inj hb).symm

theorem endsPiece_closed (r : Bytes) : EndsPiece (greaterThan :: r) 1 := .inl rfl

/-- A piece behind another one ends where the two together end. -/
theorem EndsPiece.of_drop (h : EndsPiece (s.drop m) n) : EndsPiece s (m + n) := by
  rcases h with hlast | hnext
  · refine .inl ?_
    rw [List.take_add, List.getLast?_append, hlast]
    rfl
  · exact .inr (by rwa [← List.drop_drop])

theorem EndsPiece.cons (h : EndsPiece r n) (b : UInt8) : EndsPiece (b :: r) (n + 1) := by
  rw [Nat.add_comm]
  exact EndsPiece.of_drop (m := 1) h

/-- One lemma for each kind of piece. This one goes up to a `>`. -/
theorem endsPiece_throughAngle (s : Bytes) : EndsPiece s (throughAngle s) := by
  induction s with
  | nil => exact endsPiece_all []
  | cons b r ih =>
    rw [throughAngle]
    split
    · rename_i hb
      rw [hb]
      exact endsPiece_closed r
    · exact ih.cons b

/-- A comment is closed by a `>` after dashes, in whatever state it is. -/
theorem endsPiece_commentLength (st : CommentState) (s : Bytes) :
    EndsPiece s (commentLength st s) := by
  -- the state decides whether a `>` closes the comment
  induction s generalizing st with
  | nil => exact endsPiece_all []
  | cons b r ih =>
    have hclosed : b = greaterThan → EndsPiece (b :: r) 1 := fun hb => hb ▸ endsPiece_closed r
    rw [commentLength]
    split
    · split
      · rename_i hb
        exact hclosed hb
      · split <;> exact (ih _).cons b
    · split
      · exact (ih _).cons b
      · split
        · rename_i hb
          exact hclosed (by simpa using (Bool.and_eq_true_iff.mp hb).1)
        · split <;> exact (ih _).cons b

theorem endsPiece_declaration (s : Bytes) : EndsPiece s (declaration s).2 := by
  unfold declaration
  split
  · split
    · exact ((endsPiece_commentLength _ _).cons _).cons _
    · split
      · rw [Nat.add_comm]
        exact (endsPiece_throughAngle _).of_drop
      · exact endsPiece_throughAngle _
  · exact endsPiece_all s

/-- Text goes up to a `<` that opens something. -/
theorem endsPiece_textLength (s : Bytes) : EndsPiece s (textLength s) := by
  induction s with
  | nil => exact endsPiece_all []
  | cons b r ih =>
    rw [textLength]
    split
    · rename_i hb
      obtain rfl : b = lessThan := by simpa using (Bool.and_eq_true_iff.mp hb).1
      exact endsPiece_none r
    · exact ih.cons b

/-- End tags begin with `<`. -/
theorem eq_lessThan_of_startsWithEndTag {name : Bytes} {b : UInt8}
    (h : startsWithEndTag name (b :: r) = true) : b = lessThan := by
  unfold startsWithEndTag at h
  split at h
  · rename_i a c more heq
    obtain ⟨rfl, -⟩ := List.cons.inj heq
    simp only [Bool.and_eq_true, decide_eq_true_eq] at h
    exact h.1.1
  · exact absurd h (by simp)

/-- Raw text goes up to its end tag. -/
theorem endsPiece_beforeEndTag (name s : Bytes) : EndsPiece s (beforeEndTag name s) := by
  induction s with
  | nil => exact endsPiece_all []
  | cons b r ih =>
    rw [beforeEndTag]
    split
    · rename_i hend
      obtain rfl := eq_lessThan_of_startsWithEndTag hend
      exact endsPiece_none r
    · exact ih.cons b

/-- A script goes up to its end tag, whatever comments it is in. -/
theorem endsPiece_scriptLength (st : ScriptState) (s : Bytes) :
    EndsPiece s (scriptLength st s) := by
  induction s generalizing st with
  | nil => exact endsPiece_all []
  | cons b r ih =>
    rw [scriptLength]
    split
    · rename_i hend
      obtain rfl := eq_lessThan_of_startsWithEndTag (Bool.and_eq_true_iff.mp hend).2
      exact endsPiece_none r
    · exact (ih _).cons b

theorem endsPiece_rawTextLength (name s : Bytes) : EndsPiece s (rawTextLength name s) := by
  unfold rawTextLength
  split
  · exact endsPiece_all s
  · split
    · exact endsPiece_scriptLength _ _
    · exact endsPiece_beforeEndTag _ _

/-- A tag is closed by nothing but `>`. -/
theorem eq_greaterThan_of_next {st : TagState} {b : UInt8} (hst : st ≠ .closed)
    (h : st.next b = .closed) : b = greaterThan := by
  cases st with
  | closed => exact absurd rfl hst
  | name | gap | key | afterKey | beforeValue | unquoted | quoted q => grind [TagState.next]

/-- A tag that is closed ends there. -/
theorem endsPiece_tagLength? {st : TagState} (hst : st ≠ .closed) (h : tagLength? st s = some n) :
    EndsPiece s n := by
  induction s generalizing st n with
  | nil => exact absurd h nofun
  | cons b r ih =>
    rw [tagLength?_cons] at h
    split at h
    · rename_i hclosed
      obtain rfl := eq_greaterThan_of_next hst hclosed
      obtain rfl := Option.some.inj h
      exact endsPiece_closed r
    · rename_i hopen
      obtain ⟨m, hm, rfl⟩ := Option.map_eq_some_iff.mp h
      exact (ih hopen hm).cons b

/-! ## Tokens -/

/-- Markup of any kind ends as it should. -/
theorem endsPiece_markup? {kind : TokenKind} {name : Bytes} (h : markup? s = some (kind, n, name)) :
    EndsPiece s n := by
  unfold markup? at h
  -- the cases are those of the first two bytes
  split at h
  · rename_i a b r
    split at h
    · cases h
      exact endsPiece_textLength _
    · split at h
      · obtain ⟨m, hm, heq⟩ := Option.map_eq_some_iff.mp h
        cases heq
        exact (endsPiece_tagLength? (by simp) hm).cons a
      · split at h
        · split at h
          · cases h
            exact endsPiece_all [a, b]
          · split at h
            · rename_i hc
              cases h
              rw [hc]
              exact ((endsPiece_closed _).cons b).cons a
            · split at h
              · obtain ⟨m, hm, heq⟩ := Option.map_eq_some_iff.mp h
                cases heq
                exact ((endsPiece_tagLength? (by simp) hm).cons b).cons a
              · cases h
                exact ((endsPiece_throughAngle _).cons b).cons a
        · split at h
          · cases h
            exact ((endsPiece_declaration r).cons b).cons a
          · cases h
            exact (endsPiece_throughAngle _).cons a
  · rename_i b
    cases h
    exact endsPiece_all [b]
  · exact absurd h (by simp)

/-- A token ends as it should, be it markup or raw text. -/
theorem endsPiece_next? {open? : Option Bytes} {kind : TokenKind} {name : Bytes}
    (h : next? open? s = some (kind, n, name)) : EndsPiece s n := by
  unfold next? at h
  split at h
  · exact endsPiece_markup? h
  · rename_i element
    split at h
    · exact endsPiece_markup? h
    · cases h
      exact endsPiece_rawTextLength element s

end Pieces

/-- The bytes that tokens take. -/
def width (ts : List Token) : Nat := (ts.flatMap (·.raw)).length

theorem width_cons (t : Token) (ts : List Token) : width (t :: ts) = t.raw.length + width ts := by
  simp [width]

theorem width_append (ts us : List Token) : width (ts ++ us) = width ts + width us := by
  simp [width]

/-- Behind the first tokens of a text the others follow. -/
theorem Cut.drop_width {s : Bytes} {before after : List Token} (h : Cut s (before ++ after)) :
    Cut (s.drop (width before)) after := by
  induction before generalizing s with
  | nil => exact h
  | cons t before ih =>
    cases h with
    | cons t r ts htag hrest =>
      rw [width_cons, ← List.drop_drop, List.drop_left]
      exact ih hrest

/-- A token stands behind those before it. -/
theorem Cut.raw_prefix {s : Bytes} {before after : List Token} {t : Token}
    (h : Cut s (before ++ t :: after)) : t.raw <+: s.drop (width before) := by
  have hfollow := h.drop_width
  generalize s.drop (width before) = follow at hfollow
  cases hfollow with
  | cons t r ts htag hrest => exact List.prefix_append t.raw r

/-- What is no text begins with `<`. -/
theorem lessThan_of_markup? {s name : Bytes} {kind : TokenKind} {n : Nat}
    (h : markup? s = some (kind, n, name)) (hkind : kind ≠ .text) : s.head? = some lessThan := by
  unfold markup? at h
  split at h
  · rename_i a b r
    split at h
    · exact absurd (Prod.mk.inj (Option.some.inj h)).1.symm hkind
    · rename_i hopen
      simp only [Bool.or_eq_true, decide_eq_true_eq, not_or, not_not] at hopen
      rw [hopen.1]
      rfl
  · exact absurd (Prod.mk.inj (Option.some.inj h)).1.symm hkind
  · exact absurd h (by simp)

/-- Tokens are not empty, and what is no text begins with `<`. -/
theorem raw_of_mem_tokensFrom {open? : Option Bytes} {s : Bytes} {t : Token}
    (ht : t ∈ tokensFrom open? s) :
    t.raw ≠ [] ∧ (t.kind ≠ .text → t.raw.head? = some lessThan) := by
  obtain ⟨o, r, n, hnext, hn, hr, hraw⟩ := exists_next?_of_mem_tokensFrom ht
  obtain ⟨m, rfl⟩ := Nat.exists_eq_succ_of_ne_zero hn
  obtain ⟨b, r, rfl⟩ := List.exists_cons_of_ne_nil hr
  rw [hraw, List.take_succ_cons]
  refine ⟨List.cons_ne_nil _ _, fun hkind => ?_⟩
  have hfront := lessThan_of_markup? (markup?_of_next? hnext hkind) hkind
  exact hfront

/-- **Where tokens end**: after any number of tokens but none, a `>` has just been read, or a `<` or
    the end of the text comes next. -/
theorem endsPiece_of_tokensFrom {open? : Option Bytes} {s : Bytes} {before after : List Token}
    (h : tokensFrom open? s = before ++ after) (hne : before ≠ []) :
    EndsPiece s (width before) := by
  fun_induction tokensFrom open? s generalizing before with
  | case1 open? s hnext => exact absurd (List.append_eq_nil_iff.mp h.symm).1 hne
  | case2 open? s kind n name hnext hend => exact absurd (List.append_eq_nil_iff.mp h.symm).1 hne
  | case3 open? s kind n name hnext hend ih =>
    obtain ⟨t, before, rfl⟩ := List.exists_cons_of_ne_nil hne
    obtain ⟨rfl, hrest⟩ := List.cons.inj h
    -- the length may be beyond the end of the text, as far as is known here
    have hcut : s.take (s.take n).length = s.take n ∧ s.drop (s.take n).length = s.drop n := by
      rw [List.length_take]
      rcases Nat.le_total n s.length with hle | hle
      · rw [Nat.min_eq_left hle]
        exact ⟨rfl, rfl⟩
      · rw [Nat.min_eq_right hle, List.take_length, List.drop_length, List.take_of_length_le hle,
          List.drop_eq_nil_of_le hle]
        exact ⟨rfl, rfl⟩
    rw [width_cons]
    -- the first token alone, or more of them
    by_cases hbefore : before = []
    · have hends := endsPiece_next? hnext
      rw [hbefore]
      show EndsPiece s (s.take n).length
      rwa [EndsPiece, hcut.1, hcut.2]
    · exact EndsPiece.of_drop (by rw [hcut.2]; exact ih hrest hbefore)

end MarkupLint.Markup
