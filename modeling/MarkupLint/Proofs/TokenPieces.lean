/-
  The tokens of a document are pieces of it, one behind the other.

  `Cut` says so of a text and a list of tokens, and that a start tag among them begins with `<` and
  its name. What a start tag is read from is the one branch of `markup?` that gives one
  (`tag_of_markup?`): there the name is over before the tag is, so it is not cut off
  (`nameLength_le_of_tagLength?`).
-/
import Mathlib.Data.List.Infix
import MarkupLint.Markup.Token

namespace MarkupLint.Markup

open Ascii

/-- The token is a start tag, self-closing or not. -/
def Token.isTag (t : Token) : Bool := t.kind = .startTag || t.kind = .selfClosingTag

/-- The raw text of a tag is `<`, the element name as it is written, and more. -/
def OpensWith (name raw : Bytes) : Prop :=
  ∃ written more, written ≠ [] ∧ raw = lessThan :: (written ++ more) ∧ name = lowerAll written

/-- A tag goes on byte by byte until it is closed. -/
theorem tagLength?_cons (st : TagState) (b : UInt8) (r : Bytes) :
    tagLength? st (b :: r) =
      if st.next b = .closed then some 1 else (tagLength? (st.next b) r).map (· + 1) := by
  rw [tagLength?]
  split
  · rename_i hclosed
    rw [if_pos hclosed]
  · rename_i hopen
    rw [if_neg hopen]

/-- A tag is not over before its name is. -/
theorem nameLength_le_of_tagLength? {s : Bytes} {n : Nat} (h : tagLength? .name s = some n) :
    (s.takeWhile isNameByte).length ≤ n := by
  induction s generalizing n with
  | nil => simp
  | cons b r ih =>
    rw [List.takeWhile_cons]
    by_cases hb : isNameByte b = true
    · -- a byte of the name leaves the tag in its name
      have hnext : TagState.name.next b = .name := by
        simp only [isNameByte, Bool.not_eq_true', Bool.or_eq_false_iff,
          decide_eq_false_iff_not] at hb
        simp [TagState.next, hb.1.1, hb.1.2, hb.2]
      simp only [tagLength?, hnext, Option.map_eq_some_iff] at h
      obtain ⟨m, hm, rfl⟩ := h
      have hle := ih hm
      rw [if_pos hb, List.length_cons]
      omega
    · rw [if_neg hb]
      simp

/-- Letters are bytes of names. -/
theorem isNameByte_of_isLetter {b : UInt8} (h : isLetter b = true) : isNameByte b = true := by
  by_cases hname : isNameByte b = true
  · exact hname
  · -- of the seven bytes that end a name none is a letter
    simp only [isNameByte, isSpace, Bool.not_eq_true, Bool.not_eq_false', Bool.or_eq_true,
      decide_eq_true_eq, or_assoc] at hname
    rcases hname with rfl | rfl | rfl | rfl | rfl | rfl | rfl <;> exact absurd h (by decide)

/-- What follows `<!` is never a tag. -/
theorem declaration_kind (s : Bytes) :
    (declaration s).1 = .comment ∨ (declaration s).1 = .doctype := by
  unfold declaration
  split
  · split
    · exact .inl rfl
    · split
      · exact .inr rfl
      · exact .inl rfl
  · exact .inl rfl

/-- Only `<` and a letter begin a start tag. -/
theorem tag_of_markup? {s name : Bytes} {kind : TokenKind} {n : Nat}
    (h : markup? s = some (kind, n, name)) (hkind : kind = .startTag ∨ kind = .selfClosingTag) :
    ∃ b r m, s = lessThan :: b :: r ∧ isLetter b = true ∧ tagLength? .name (b :: r) = some m ∧
      n = m + 1 ∧ name = elementName (b :: r) := by
  -- every branch but one gives another kind
  have hother : ∀ {k : TokenKind} {m : Nat} {x : Bytes}, ¬ (k = .startTag ∨ k = .selfClosingTag) →
      some (k, m, x) ≠ some (kind, n, name) := by
    intro k m x hk heq
    obtain ⟨rfl, -⟩ := Prod.mk.inj (Option.some.inj heq)
    exact hk hkind
  unfold markup? at h
  split at h
  · rename_i a b r
    split at h
    · exact absurd h (hother (by simp))
    · rename_i hopen
      split at h
      · -- the one branch: a letter behind the `<`
        rename_i hletter
        obtain ⟨m, hm, heq⟩ := Option.map_eq_some_iff.mp h
        simp only [Prod.mk.injEq] at heq
        have ha : a = lessThan := by
          simp only [Bool.or_eq_true, decide_eq_true_eq, not_or] at hopen
          exact not_not.mp hopen.1
        exact ⟨b, r, m, by rw [ha], hletter, hm, heq.2.1.symm, heq.2.2.symm⟩
      · split at h
        · split at h
          · exact absurd h (hother (by simp))
          · split at h
            · exact absurd h (hother (by simp))
            · split at h
              · obtain ⟨m, -, heq⟩ := Option.map_eq_some_iff.mp h
                exact absurd (congrArg some heq) (hother (by simp))
              · exact absurd h (hother (by simp))
        · split at h
          · have hdecl := declaration_kind r
            cases hd : declaration r with
            | mk k m =>
              rw [hd] at h hdecl
              rcases hdecl with rfl | rfl <;> exact absurd h (hother (by simp))
          · exact absurd h (hother (by simp))
  · exact absurd h (hother (by simp))
  · exact absurd h (by simp)

/-- A start tag at the front of a text is `<` and its name. -/
theorem opensWith_of_markup? {s name : Bytes} {kind : TokenKind} {n : Nat}
    (h : markup? s = some (kind, n, name)) (hkind : kind = .startTag ∨ kind = .selfClosingTag) :
    OpensWith name (s.take n) := by
  obtain ⟨b, r, m, rfl, hletter, hm, rfl, rfl⟩ := tag_of_markup? h hkind
  obtain ⟨rest, hrest⟩ := List.takeWhile_prefix isNameByte (l := b :: r)
  -- the tag is not cut off inside its name
  have hcut : ((b :: r).takeWhile isNameByte ++ rest).take m = _ := List.take_append
  rw [hrest, List.take_of_length_le (nameLength_le_of_tagLength? hm)] at hcut
  refine ⟨(b :: r).takeWhile isNameByte, rest.take (m - ((b :: r).takeWhile isNameByte).length),
    ?_, ?_, rfl⟩
  · simp [isNameByte_of_isLetter hletter]
  · show (lessThan :: b :: r).take (m + 1) = _
    rw [List.take_succ_cons, hcut]

/-- What is no text is read as markup, whatever element is open. -/
theorem markup?_of_next? {open? : Option Bytes} {s name : Bytes} {kind : TokenKind} {n : Nat}
    (h : next? open? s = some (kind, n, name)) (hkind : kind ≠ .text) :
    markup? s = some (kind, n, name) := by
  unfold next? at h
  split at h
  · exact h
  · split at h
    · exact h
    · exact absurd (Prod.mk.inj (Option.some.inj h)).1.symm hkind

/-- Each token was cut off at some point, and was not empty. -/
theorem exists_next?_of_mem_tokensFrom {open? : Option Bytes} {s : Bytes} {t : Token}
    (ht : t ∈ tokensFrom open? s) :
    ∃ o r n, next? o r = some (t.kind, n, t.name) ∧ n ≠ 0 ∧ r ≠ [] ∧ t.raw = r.take n := by
  fun_induction tokensFrom open? s with
  | case1 open? s hnext => exact absurd ht List.not_mem_nil
  | case2 open? s kind n name hnext hend => exact absurd ht List.not_mem_nil
  | case3 open? s kind n name hnext hend ih =>
    rcases List.mem_cons.mp ht with rfl | hrest
    · rw [not_or] at hend
      exact ⟨open?, s, n, hnext, hend.1, hend.2, rfl⟩
    · exact ih hrest

/-- The tokens are cut off the text one after the other, and the tags among them begin with their
    names. -/
inductive Cut : Bytes → List Token → Prop where
  | nil (s : Bytes) : Cut s []
  | cons (t : Token) (r : Bytes) (ts : List Token) (htag : t.isTag = true → OpensWith t.name t.raw)
      (hrest : Cut r ts) : Cut (t.raw ++ r) (t :: ts)

/-- Tokens are cut off the text, whatever element is open. -/
theorem cut_tokensFrom (open? : Option Bytes) (s : Bytes) : Cut s (tokensFrom open? s) := by
  fun_induction tokensFrom open? s with
  | case1 open? s hnext => exact .nil s
  | case2 open? s kind n name hnext hend => exact .nil s
  | case3 open? s kind n name hnext hend ih =>
    have htag : Token.isTag ⟨kind, s.take n, name⟩ = true → OpensWith name (s.take n) := by
      intro htag
      have hkind : kind = .startTag ∨ kind = .selfClosingTag := by simpa [Token.isTag] using htag
      refine opensWith_of_markup? (markup?_of_next? hnext fun htext => ?_) hkind
      rw [htext] at hkind
      exact hkind.elim nofun nofun
    have hcut := Cut.cons ⟨kind, s.take n, name⟩ (s.drop n) _ htag ih
    rwa [List.take_append_drop] at hcut

end MarkupLint.Markup
