/-
  What linting needs of the tokenizer.

  Documents are cut into tokens in the way of a library for HTML. Of that, linting uses little, and
  a `Tokenizer` is any way of cutting documents that has these properties: tokens are pieces of the
  text one behind the other, and begin and end with `<` and `>` where they are no text; a start tag
  begins with its name; a newline in front of a document is text; and a tag with one attribute is a
  token. All results on linting are for any tokenizer. The one that is in use is `Tokenizer.html`.
-/
import MarkupLint.Proofs.TokenEnds
import MarkupLint.Rule.Lint

namespace MarkupLint.Markup

open Ascii Bytes

/-! ## Text in front of the first markup -/

/-- A newline opens no markup, so it makes the text in front one byte longer. -/
theorem textLength_newline_cons (text : Bytes) :
    textLength (newline :: text) = textLength text + 1 := by
  have hne : newline ≠ lessThan := by decide
  simp [textLength, hne]

/-- The text in front is part of the document. -/
theorem textLength_le (s : Bytes) : textLength s ≤ s.length := by
  induction s with
  | nil => exact Nat.le_refl 0
  | cons b r ih =>
    rw [textLength]
    split
    · exact Nat.zero_le _
    · exact Nat.succ_le_succ ih

/-- The text before the first markup is a token of its own. -/
theorem markup?_of_textLength {s : Bytes} (h : textLength s ≠ 0) :
    markup? s = some (.text, textLength s, []) := by
  cases s with
  | nil => exact absurd rfl h
  | cons a r =>
    cases r with
    | nil => simp [markup?, textLength]
    | cons b r =>
      -- the first byte opens no markup, or the text would be empty
      have hopen : (a ≠ lessThan || !opensMarkup b) = true := by
        simp only [textLength, List.head?_cons, Option.map_some, Option.getD_some] at h
        grind
      simp only [markup?, if_pos hopen]

/-- A document is the text before its first markup, which may be empty, and what follows. -/
theorem tokens_leading (text : Bytes) :
    tokens text =
      (if textLength text = 0 then [] else [⟨.text, text.take (textLength text), []⟩]) ++
        tokensFrom none (text.drop (textLength text)) := by
  split
  · rename_i hzero
    rw [hzero]
    rfl
  · rename_i hpos
    have hne : text ≠ [] := by
      rintro rfl
      exact hpos rfl
    have hnext : next? none text = some (.text, textLength text, []) := markup?_of_textLength hpos
    rw [tokens, tokensFrom]
    simp [hnext, hpos, hne, opens?]

/-- A newline in front of a document is put to the text there, or is a token of its own. -/
theorem tokens_newline_cons (text : Bytes) :
    ∃ lead lead' rest, tokens text = lead ++ rest ∧ tokens (newline :: text) = lead' ++ rest ∧
      (∀ t ∈ lead ++ lead', t.kind = .text) ∧ width lead' = width lead + 1 := by
  have hlonger := tokens_leading (newline :: text)
  rw [textLength_newline_cons, if_neg (Nat.succ_ne_zero _), List.drop_succ_cons] at hlonger
  refine ⟨_, _, _, tokens_leading text, hlonger, ?_, ?_⟩
  · split <;> simp
  · have hlen := textLength_le text
    split
    · rename_i hzero
      simp [width, hzero]
    · simp [width, hlen]

/-! ## A tag alone -/

/-- A tag with one attribute, which has no value. -/
def tagWith (name : Bytes) : Bytes := lessThan :: 112 :: 32 :: (name ++ [greaterThan])

/-- Between attributes and in a name, the bytes of a name go on to the `>` behind them. -/
theorem tagLength?_name {st : TagState} {name : Bytes} (hst : st = .gap ∨ st = .key)
    (hplain : ∀ b ∈ name, isAttributeByte b = true) :
    tagLength? st (name ++ [greaterThan]) = some (name.length + 1) := by
  induction name generalizing st with
  | nil => rcases hst with rfl | rfl <;> rfl
  | cons b r ih =>
    have hb := hplain b List.mem_cons_self
    -- from the gap on, each byte is one of the name
    have hnext : st.next b = .key := by
      simp only [isAttributeByte, Bool.not_eq_true', Bool.or_eq_false_iff,
        decide_eq_false_iff_not] at hb
      rcases hst with rfl | rfl <;> simp [TagState.next, hb]
    rw [List.cons_append, tagLength?_cons, hnext,
      ih (.inr rfl) fun c hc => hplain c (List.mem_cons_of_mem _ hc)]
    simp

/-- The document is read as one tag. -/
theorem tokens_tagWith {name : Bytes} (hplain : ∀ b ∈ name, isAttributeByte b = true) :
    ∃ kind, (kind = .startTag ∨ kind = .selfClosingTag) ∧
      tokens (tagWith name) = [⟨kind, tagWith name, Bytes.ofString "p"⟩] := by
  have hlength : tagLength? .name (112 :: 32 :: (name ++ [greaterThan])) =
      some (name.length + 3) := by
    have hname : TagState.name.next 112 = .name := by decide
    have hgap : TagState.name.next 32 = .gap := by decide
    rw [tagLength?_cons, hname, tagLength?_cons, hgap, tagLength?_name (.inl rfl) hplain]
    simp
  have helement : elementName (112 :: 32 :: (name ++ [greaterThan])) = Bytes.ofString "p" := by
    have hp : isNameByte 112 = true := by decide
    have hspace : isNameByte 32 = false := by decide
    simp only [elementName, List.takeWhile_cons, hp, hspace, if_true, Bool.false_eq_true, if_false]
    decide
  -- a `/` before the `>` would make it self-closing, which no name has; either way it is a tag
  have hmarkup : ∃ kind, (kind = .startTag ∨ kind = .selfClosingTag) ∧
      markup? (tagWith name) = some (kind, (tagWith name).length, Bytes.ofString "p") := by
    have hopens : (decide (lessThan ≠ lessThan) || !opensMarkup 112) = false := by decide
    have hletter : isLetter 112 = true := by decide
    have hlen : (tagWith name).length = name.length + 3 + 1 := by simp [tagWith]
    rw [hlen, ← helement]
    simp only [tagWith, markup?, hopens, hletter, hlength, Option.map_some, if_true,
      Bool.false_eq_true, if_false]
    refine ⟨_, ?_, rfl⟩
    split
    · exact .inr rfl
    · exact .inl rfl
  obtain ⟨kind, hkind, hmarkup⟩ := hmarkup
  refine ⟨kind, hkind, ?_⟩
  have hnext : next? none (tagWith name) = some (kind, (tagWith name).length, Bytes.ofString "p") :=
    hmarkup
  have hne : ¬ ((tagWith name).length = 0 ∨ tagWith name = []) := by simp [tagWith]
  have hopens : opens? kind (Bytes.ofString "p") = none := by
    rcases hkind with rfl | rfl <;> decide
  -- nothing is left behind the tag
  have hend : tokensFrom none [] = [] := by
    rw [tokensFrom]
    rfl
  rw [tokens, tokensFrom, hnext]
  simp only [if_neg hne, List.take_length, List.drop_length, hopens, hend]

/-! ## Tokenizers -/

/-- A way of cutting documents into tokens, with what linting needs of it. -/
structure Tokenizer where
  tokens : Bytes → List Token
  /-- tokens are consecutive pieces, and start tags begin with `<` and their names -/
  cut : ∀ s, Cut s (tokens s)
  /-- no token is empty, and what is no text begins with `<` -/
  front : ∀ {s t}, t ∈ tokens s → t.raw ≠ [] ∧ (t.kind ≠ .text → t.raw.head? = some lessThan)
  /-- between two tokens the first one ends in `>` or the second one begins with `<` -/
  ends : ∀ {s before after}, tokens s = before ++ after → before ≠ [] → EndsPiece s (width before)
  /-- a newline in front of a document is text -/
  newline_cons : ∀ text, ∃ lead lead' rest, tokens text = lead ++ rest ∧
    tokens (newline :: text) = lead' ++ rest ∧ (∀ t ∈ lead ++ lead', t.kind = .text) ∧
    width lead' = width lead + 1
  /-- a tag with one attribute is one token -/
  tag : ∀ {name : Bytes}, (∀ b ∈ name, isAttributeByte b = true) →
    ∃ kind, (kind = .startTag ∨ kind = .selfClosingTag) ∧
      tokens (tagWith name) = [⟨kind, tagWith name, ofString "p"⟩]

namespace Tokenizer

/-- The tokenizer that is in use. -/
def html : Tokenizer where
  tokens := Markup.tokens
  cut := cut_tokensFrom none
  front := raw_of_mem_tokensFrom
  ends := endsPiece_of_tokensFrom
  newline_cons := tokens_newline_cons
  tag := tokens_tagWith

/-- The outline of a document. -/
abbrev outline (T : Tokenizer) (s : Source) : Outline := outlineWith T.tokens s

/-- The issues of a document. -/
abbrev check (T : Tokenizer) (o : Options) (text : Bytes) : List Issue :=
  Rule.checkWith T.tokens o text

/-- Lints a document. -/
abbrev lint (T : Tokenizer) (config : Config) (text : Bytes) (canceled : Bool) :
    Except Rule.LintError (List Issue) :=
  Rule.lintWith T.tokens config text canceled

/-- Linting as it is done uses this tokenizer. -/
theorem lint_html : html.lint = Rule.lint := rfl

end Tokenizer
end MarkupLint.Markup
