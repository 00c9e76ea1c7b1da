/-
  Which lines the rule on indentation leaves alone. A line belongs to the token that holds its first
  byte. A line that begins in a comment is never reported. A line that begins in a text is left
  alone while a verbatim element is open, and the reader of the document remembers one such element
  only: the one that was started last. So inside a verbatim element text is subject to the rule
  again once another verbatim element was started and has ended there.

  `verbatimFrom` says what is gathered token by token; the induction over the tokens is done once,
  in `mem_verbatimFrom_iff`.
-/
import MarkupLint.Proofs.MarkupOffsets
import MarkupLint.Proofs.Places
import MarkupLint.Proofs.RuleReports

namespace MarkupLint.Markup

/-! ## The open element -/

/-- The token is a start tag of the element. -/
def Token.Starts (t : Token) (n : Bytes) : Prop := t.kind = .startTag ∧ t.name = n

/-- The token is an end tag of the element. -/
def Token.Ends (t : Token) (n : Bytes) : Prop := t.kind = .endTag ∧ t.name = n

/-- The verbatim element that is open after a token. -/
def Token.openAfter (open? : Option Bytes) (t : Token) : Option Bytes :=
  match t.kind with
  | .startTag => if verbatimElements.contains t.name then some t.name else open?
  | .endTag => if open? = some t.name then none else open?
  | _ => open?

/-- Behind these tokens the element is not over: it was started and has not ended since. -/
def Inside (n : Bytes) (before : List Token) : Prop :=
  ∃ a t b, before = a ++ t :: b ∧ t.Starts n ∧ ∀ u ∈ b, ¬ u.Ends n

/-- Of the verbatim elements the one that was started last has ended. -/
def LastEnded (m : Bytes) (before : List Token) : Prop :=
  ∃ a t b, before = a ++ t :: b ∧ t.Starts m ∧ (∀ u ∈ b, ∀ n ∈ verbatimElements, ¬ u.Starts n) ∧
    ∃ u ∈ b, u.Ends m

section Open

variable {open? : Option Bytes} {t : Token} {ts before : List Token} {n m : Bytes}

/-- A start tag of a verbatim element opens it, whatever was open before. -/
theorem openAfter_of_starts (hn : n ∈ verbatimElements) (ht : t.Starts n) :
    t.openAfter open? = some n := by
  obtain ⟨hkind, rfl⟩ := ht
  simp [Token.openAfter, hkind, hn]

theorem openAfter_of_ends (ht : t.Ends n) : t.openAfter (some n) = none := by
  obtain ⟨hkind, rfl⟩ := ht
  simp [Token.openAfter, hkind]

/-- What neither starts a verbatim element nor ends the open one changes nothing. -/
theorem openAfter_of_other (hstart : ∀ n ∈ verbatimElements, ¬ t.Starts n) (hend : ¬ t.Ends m) :
    t.openAfter (some m) = some m := by
  unfold Token.openAfter
  split
  · rename_i hkind
    rw [if_neg]
    intro hmem
    exact hstart t.name (by simpa using hmem) ⟨hkind, rfl⟩
  · rename_i hkind
    rw [if_neg]
    intro heq
    exact hend ⟨hkind, (Option.some.inj heq).symm⟩
  · rfl

/-- Without a start tag of a verbatim element nothing is opened. -/
theorem foldl_openAfter_none (h : ∀ u ∈ ts, ∀ n ∈ verbatimElements, ¬ u.Starts n) :
    ts.foldl Token.openAfter none = none := by
  induction ts with
  | nil => rfl
  | cons t ts ih =>
    have hfirst : t.openAfter none = none := by
      unfold Token.openAfter
      split
      · rename_i hkind
        rw [if_neg]
        intro hmem
        exact h t List.mem_cons_self t.name (by simpa using hmem) ⟨hkind, rfl⟩
      · rw [if_neg nofun]
      · rfl
    rw [List.foldl_cons, hfirst]
    exact ih fun u hu => h u (List.mem_cons_of_mem t hu)

/-- Behind the last start tag of a verbatim element, that element is open until its end tag. -/
theorem foldl_openAfter_some (h : ∀ u ∈ ts, ∀ n ∈ verbatimElements, ¬ u.Starts n) :
    (ts.foldl Token.openAfter (some m)).isSome = true ↔ ∀ u ∈ ts, ¬ u.Ends m := by
  induction ts with
  | nil => simp
  | cons t ts ih =>
    have hrest : ∀ u ∈ ts, ∀ n ∈ verbatimElements, ¬ u.Starts n :=
      fun u hu => h u (List.mem_cons_of_mem t hu)
    rw [List.foldl_cons, List.forall_mem_cons]
    by_cases hend : t.Ends m
    · rw [openAfter_of_ends hend, foldl_openAfter_none hrest]
      simp [hend]
    · rw [openAfter_of_other (h t List.mem_cons_self) hend, ih hrest]
      simp [hend]

/-- Of start tags of verbatim elements there is a last one. -/
theorem exists_last_start (ht : ∃ n ∈ verbatimElements, t.Starts n) (ts : List Token) :
    ∃ a u b, t :: ts = a ++ u :: b ∧ b <:+ ts ∧ (∃ m ∈ verbatimElements, u.Starts m) ∧
      ∀ w ∈ b, ∀ m ∈ verbatimElements, ¬ w.Starts m := by
  induction ts generalizing t with
  | nil => exact ⟨[], t, [], rfl, List.suffix_refl _, ht, by simp⟩
  | cons v ts ih =>
    -- the next token may be a later start tag
    by_cases hv : ∃ m ∈ verbatimElements, v.Starts m
    · obtain ⟨a, u, b, hcut, hsuffix, hu, hb⟩ := ih hv
      exact ⟨t :: a, u, b, by rw [hcut]; rfl, hsuffix.trans (List.suffix_cons v ts), hu, hb⟩
    · obtain ⟨a, u, b, hcut, hsuffix, hu, hb⟩ := ih ht
      cases a with
      | nil =>
        -- the first one is the last one, and the token between does not change that
        obtain ⟨rfl, rfl⟩ := List.cons.inj hcut
        refine ⟨[], t, v :: ts, rfl, List.suffix_refl _, ht, List.forall_mem_cons.mpr ⟨?_, hb⟩⟩
        exact fun m hm hstarts => hv ⟨m, hm, hstarts⟩
      | cons x a =>
        obtain ⟨rfl, hts⟩ := List.cons.inj hcut
        exact ⟨t :: v :: a, u, b, by rw [hts]; rfl, hsuffix.trans (List.suffix_cons v ts), hu, hb⟩

/-- **What is open inside a verbatim element**: something, unless another verbatim element was
    started last and has ended. -/
theorem isSome_open_iff (hn : n ∈ verbatimElements) (hinside : Inside n before) :
    (before.foldl Token.openAfter none).isSome = true ↔
      ¬ ∃ m ∈ verbatimElements, m ≠ n ∧ LastEnded m before := by
  -- behind the last start tag it matters only whether the element has ended
  have hlast : ∀ {m : Bytes} {a b : List Token} {u : Token}, m ∈ verbatimElements →
      before = a ++ u :: b → u.Starts m → (∀ w ∈ b, ∀ k ∈ verbatimElements, ¬ w.Starts k) →
      ((before.foldl Token.openAfter none).isSome = true ↔ ∀ w ∈ b, ¬ w.Ends m) := by
    rintro m a b u hm rfl hu hb
    rw [List.foldl_append, List.foldl_cons, openAfter_of_starts hm hu]
    exact foldl_openAfter_some hb
  constructor
  · rintro hopen ⟨m, hm, -, a, u, b, hcut, hu, hb, w, hw, hend⟩
    exact (hlast hm hcut hu hb).mp hopen w hw hend
  · intro hnone
    obtain ⟨a, t, b, hcut, ht, hb⟩ := hinside
    obtain ⟨a', u, b', hcut', hsuffix, ⟨m, hm, hu⟩, hb'⟩ := exists_last_start ⟨n, hn, ht⟩ b
    have hbefore : before = (a ++ a') ++ u :: b' := by rw [hcut, hcut', List.append_assoc]
    refine (hlast hm hbefore hu hb').mpr fun w hw hend => ?_
    -- the element itself has not ended, so it must be another one
    by_cases hmn : m = n
    · exact hb w (hsuffix.subset hw) (hmn ▸ hend)
    · exact hnone ⟨m, hm, hmn, a ++ a', u, b', hbefore, hu, hb', w, hw, hend⟩

end Open

/-! ## Verbatim lines -/

/-- The token is verbatim content when the given verbatim element is open: a comment always is. -/
def Token.isVerbatim (open? : Option Bytes) (t : Token) : Bool :=
  match t.kind with
  | .comment => true
  | .text => open?.isSome
  | _ => false

/-- The verbatim lines that tokens give, the first of which begins at `offset`. -/
def verbatimFrom (s : Source) (open? : Option Bytes) (offset : Nat) : List Token → List Nat
  | [] => []
  | t :: ts =>
    (if t.isVerbatim open? then (OutlineState.linesBegunIn s offset t.raw.length).reverse
      else []) ++
      verbatimFrom s (t.openAfter open?) (offset + t.raw.length) ts

/-- The reader keeps track of the open element. -/
theorem OutlineState.step_open? (s : Source) (st : OutlineState) (t : Token) :
    (st.step s t).open? = t.openAfter st.open? := by
  unfold OutlineState.step Token.openAfter
  cases t.kind with
  | startTag => rfl
  | selfClosingTag => rfl
  | endTag => simp only; split <;> rfl
  | text => simp only; split <;> rfl
  | comment => rfl
  | doctype => rfl

/-- The reader gathers the lines that begin in verbatim content. -/
theorem OutlineState.step_verbatim (s : Source) (st : OutlineState) (t : Token) :
    (st.step s t).verbatim =
      (if t.isVerbatim st.open? then linesBegunIn s st.offset t.raw.length else []) ++
        st.verbatim := by
  unfold OutlineState.step Token.isVerbatim
  cases t.kind with
  | startTag => rfl
  | selfClosingTag => rfl
  | endTag => simp only; split <;> rfl
  | text => simp only; split <;> rfl
  | comment => rfl
  | doctype => rfl

/-- Lines are gathered token by token. -/
theorem foldl_step_verbatim (s : Source) (ts : List Token) (st : OutlineState) :
    (ts.foldl (OutlineState.step s) st).verbatim =
      (verbatimFrom s st.open? st.offset ts).reverse ++ st.verbatim := by
  induction ts generalizing st with
  | nil => rfl
  | cons t ts ih =>
    rw [List.foldl_cons, ih, OutlineState.step_offset, OutlineState.step_open?,
      OutlineState.step_verbatim, verbatimFrom, List.reverse_append, List.append_assoc]
    cases t.isVerbatim st.open? <;> simp

/-- Each token gives its lines, told by where it begins and what is open there. -/
theorem outline_verbatim (T : Tokenizer) (s : Source) :
    (T.outline s).verbatim = verbatimFrom s none 0 (T.tokens s.text) := by
  show (((T.tokens s.text).foldl (OutlineState.step s) OutlineState.start).verbatim).reverse = _
  rw [foldl_step_verbatim]
  simp [OutlineState.start]

section Lines

variable {T : Tokenizer} {text line : Bytes} {offset start k n : Nat} {open? : Option Bytes}
  {t : Token} {before after ts : List Token}

/-- A line begins in a token if its first byte lies behind the first one of the token. -/
theorem mem_linesBegunIn_iff (hstart : (Source.ofText text).starts[k]? = some start) (hn : 0 < n) :
    k ∈ OutlineState.linesBegunIn (.ofText text) offset n ↔
      offset < start ∧ start < offset + n := by
  have hline : ∀ o, (Source.ofText text).lineAt o < k ↔ o < start :=
    fun _ => Source.lineAt_lt_iff hstart
  have hfirst := hline offset
  have hlast := hline (max (offset + n - 1) offset)
  simp only [OutlineState.linesBegunIn, List.mem_reverse, List.mem_range'_1]
  omega

/-- Lines that begin before the tokens, or where the first of them begins, are not theirs. -/
theorem not_mem_verbatimFrom (hstart : (Source.ofText text).starts[k]? = some start)
    (hne : ∀ t ∈ ts, t.raw ≠ []) (hle : start ≤ offset) :
    k ∉ verbatimFrom (.ofText text) open? offset ts := by
  induction ts generalizing offset open? with
  | nil => exact List.not_mem_nil
  | cons t ts ih =>
    have hpos := List.length_pos_iff.mpr (hne t List.mem_cons_self)
    rw [verbatimFrom, List.mem_append, not_or]
    refine ⟨fun hmem => ?_, ih (fun u hu => hne u (List.mem_cons_of_mem t hu)) (by omega)⟩
    split at hmem
    · rw [List.mem_reverse, mem_linesBegunIn_iff hstart hpos] at hmem
      omega
    · exact absurd hmem List.not_mem_nil

/-- **Which lines are gathered**: a line belongs to the token that holds its first byte, and is
    verbatim if that token is, unless the token begins there. The induction is on the tokens before
    that one. -/
theorem mem_verbatimFrom_iff (hstart : (Source.ofText text).starts[k]? = some start)
    (hne : ∀ u ∈ before ++ t :: after, u.raw ≠ []) (hlo : offset + width before ≤ start)
    (hhi : start < offset + width before + t.raw.length) :
    k ∈ verbatimFrom (.ofText text) open? offset (before ++ t :: after) ↔
      t.isVerbatim (before.foldl Token.openAfter open?) = true ∧ offset + width before < start := by
  induction before generalizing offset open? with
  | nil =>
    obtain ⟨ht, hafter⟩ := List.forall_mem_cons.mp hne
    have hpos := List.length_pos_iff.mpr ht
    have hwidth : width [] = 0 := rfl
    -- lines of later tokens begin behind this one
    have hlater : k ∉ verbatimFrom (.ofText text) (t.openAfter open?)
        (offset + t.raw.length) after :=
      not_mem_verbatimFrom hstart hafter (Nat.le_of_lt hhi)
    rw [List.nil_append, verbatimFrom, List.mem_append, or_iff_left hlater, List.foldl_nil]
    split
    · rename_i hverbatim
      rw [List.mem_reverse, mem_linesBegunIn_iff hstart hpos, and_iff_right hverbatim]
      omega
    · rename_i hverbatim
      exact ⟨fun h => absurd h List.not_mem_nil, fun h => absurd h.1 hverbatim⟩
  | cons u before ih =>
    obtain ⟨hu, hrest⟩ := List.forall_mem_cons.mp hne
    have hpos := List.length_pos_iff.mpr hu
    rw [width_cons] at hlo hhi
    -- and those of a token before it, before this one
    have hown : k ∉ if u.isVerbatim open? then
        (OutlineState.linesBegunIn (.ofText text) offset u.raw.length).reverse else [] := by
      split
      · rw [List.mem_reverse, mem_linesBegunIn_iff hstart hpos]
        omega
      · exact List.not_mem_nil
    rw [List.cons_append, verbatimFrom, List.mem_append, or_iff_right hown,
      ih hrest (by omega) (by omega), width_cons, List.foldl_cons, Nat.add_assoc]

/-- The line is line `k` of the text, and its first byte lies in the token `t`, which stands behind
    the tokens `before`. -/
structure BeginsIn (T : Tokenizer) (text : Bytes) (before : List Token) (t : Token) (k : Nat)
    (line : Bytes) : Prop where
  token : ∃ after, T.tokens text = before ++ t :: after
  is_line : (Source.ofText text).lines[k]? = some line
  starts : ∃ start, (Source.ofText text).starts[k]? = some start ∧
    width before ≤ start ∧ start < width before + t.raw.length

/-- A token at the start of a line begins with `<`, unless it is a text at the beginning of the
    document. -/
theorem lessThan_at_start (hline : (Source.ofText text).lines[k]? = some line)
    (hstart : (Source.ofText text).starts[k]? = some (width before))
    (htokens : T.tokens text = before ++ t :: after) (h : t.kind ≠ .text ∨ before ≠ []) :
    (text.drop (width before)).head? = some Ascii.lessThan := by
  have hcut : Cut text (before ++ t :: after) := htokens ▸ T.cut text
  have hraw : ∀ u ∈ before ++ t :: after, u.raw ≠ [] ∧
      (u.kind ≠ .text → u.raw.head? = some Ascii.lessThan) :=
    fun u hu => T.front (htokens ▸ hu)
  obtain ⟨hne, hfront⟩ := hraw t (by simp)
  obtain ⟨b, raw, hb⟩ := List.exists_cons_of_ne_nil hne
  obtain ⟨r, hr⟩ := hcut.raw_prefix
  rw [hb] at hr hfront
  rw [← hr]
  rcases h with hkind | hbefore
  · exact hfront hkind
  · obtain ⟨u, us, rfl⟩ := List.exists_cons_of_ne_nil hbefore
    have hpos : 0 < width (u :: us) := by
      have hu := List.length_pos_iff.mpr (hraw u (by simp)).1
      rw [width_cons]
      omega
    have hlt : width (u :: us) < text.length := by
      have hlen := congrArg List.length hr
      simp at hlen
      omega
    rcases T.ends htokens hbefore with hlast | hnext
    · -- the byte before the start of a line is a newline
      have hnewline := (Source.line_at_start hline hstart (Nat.le_of_lt hlt)).2 hpos
      have hbyte : ((text.take (width (u :: us))).getLast?) = some Bytes.newline := by
        rw [List.getLast?_eq_getElem?, List.length_take, Nat.min_eq_left (Nat.le_of_lt hlt),
          List.getElem?_take_of_lt (by omega)]
        exact hnewline
      rw [hbyte] at hlast
      exact absurd hlast (by decide)
    · rw [hnext b (by rw [← hr]; rfl)]
      rfl

end Lines
end MarkupLint.Markup

namespace MarkupLint.Rule

open Markup

/-! ## Indentation -/

/-- The indentation is one that the options forbid. -/
def Misindented (o : Options) (line : Bytes) : Prop :=
  o.indentWidth ≠ 0 ∧ Blank.isBlankLine line = false ∧ indentOf line % o.indentWidth ≠ 0

/-- There is an issue about the indentation of line `k`. -/
def ReportsIndent (issues : List Issue) (k : Nat) : Prop :=
  ∃ i ∈ issues, i.code = RuleName.indentWidth.code ∧ i.line = k

variable {T : Tokenizer} {o : Options} {text line : Bytes} {k : Nat} {before : List Token}
  {t : Token}

/-- A line is reported for its indentation if that is forbidden and the line is not gathered. -/
theorem reportsIndent_check_iff (hline : (Source.ofText text).lines[k]? = some line) :
    ReportsIndent (T.check o text) k ↔
      Misindented o line ∧ k ∉ (T.outline (.ofText text)).verbatim := by
  have hline' : (Bytes.splitAt Bytes.newline text)[k]? = some line := by
    simpa [Source.ofText] using hline
  constructor
  · rintro ⟨i, hi, hcode, hnumber⟩
    rcases mem_check_iff.mp hi with ⟨hwidth, hmem⟩ | hmem
    · obtain ⟨j, l, hl, hmem⟩ := mem_checkLines_iff.mp hmem
      obtain ⟨⟨hverbatim, hblank, hspaces⟩, rfl⟩ := mem_checkIndent_iff.mp hmem
      have hnumber : ((0 + j : Nat) : Int) = k := hnumber
      obtain rfl : j = k := by omega
      rw [Nat.zero_add] at hverbatim
      obtain rfl := Option.some.inj (hl.symm.trans hline')
      exact ⟨⟨hwidth, hblank, hspaces⟩, hverbatim⟩
    · -- issues on tags have other codes
      obtain ⟨u, -, r, hne, hreports⟩ := reports_of_mem_checkTags hmem
      refine absurd (RuleName.code_inj (?_ : r.code = RuleName.indentWidth.code)) hne
      rcases hreports with hreports | ⟨a, -, hreports⟩
      · exact hreports.code_eq.symm.trans hcode
      · exact hreports.code_eq.symm.trans hcode
  · rintro ⟨⟨hwidth, hblank, hspaces⟩, hverbatim⟩
    refine ⟨_, mem_check_iff.mpr (.inl ⟨hwidth, mem_checkLines_iff.mpr ⟨k, line, hline',
      mem_checkIndent_iff.mpr ⟨⟨?_, hblank, hspaces⟩, rfl⟩⟩⟩), rfl, ?_⟩
    · rwa [Nat.zero_add]
    · simp

/-- A line that begins with `<` is not indented. -/
theorem not_misindented_of_lessThan {r : Bytes} (hline : line <+: r)
    (hr : r.head? = some Ascii.lessThan) : ¬ Misindented o line := by
  rintro ⟨-, -, hspaces⟩
  refine hspaces ?_
  cases line with
  | nil => simp [indentOf]
  | cons b l =>
    obtain ⟨more, rfl⟩ := hline
    obtain rfl : b = Ascii.lessThan := Option.some.inj hr
    simp [indentOf, Ascii.lessThan]

/-- **When a line is reported**: when its indentation is forbidden and the token in which it begins
    is not verbatim content. -/
theorem reportsIndent_iff_of_beginsIn (h : BeginsIn T text before t k line)
    (hfirst : t.kind ≠ .text ∨ before ≠ []) :
    ReportsIndent (T.check o text) k ↔
      Misindented o line ∧ t.isVerbatim (before.foldl Token.openAfter none) = false := by
  obtain ⟨⟨after, htokens⟩, hline, start, hstart, hlo, hhi⟩ := h
  have hne : ∀ u ∈ before ++ t :: after, u.raw ≠ [] := fun u hu => (T.front (htokens ▸ hu)).1
  have hmem : k ∈ (T.outline (.ofText text)).verbatim ↔
      t.isVerbatim (before.foldl Token.openAfter none) = true ∧ 0 + width before < start := by
    rw [outline_verbatim]
    show k ∈ verbatimFrom (.ofText text) none 0 (T.tokens text) ↔ _
    rw [htokens]
    exact mem_verbatimFrom_iff hstart hne (by omega) (by omega)
  rw [reportsIndent_check_iff hline, hmem]
  rcases Nat.lt_or_eq_of_le hlo with hlt | rfl
  · simp [hlt]
  · -- the token begins with the line, which is therefore not indented
    have hcut : Cut text (before ++ t :: after) := htokens ▸ T.cut text
    have hle : width before ≤ text.length := by
      have hlen := hcut.raw_prefix.length_le
      rw [List.length_drop] at hlen
      omega
    have hnot : ¬ Misindented o line := not_misindented_of_lessThan
      (Source.line_at_start hline hstart hle).1 (lessThan_at_start hline hstart htokens hfirst)
    simp [hnot]

/-- **Text inside verbatim elements, and comments**, in every document and under every configuration
    that is in order. No line that begins in a comment is reported for its indentation. A line that
    begins in a text inside a verbatim element, between its start tag and its next end tag, is
    reported just when its indentation is one that the options forbid and another verbatim element,
    the last one started before the text, has ended there. -/
theorem verbatim_line_reported_iff (T : Tokenizer) (config : Config) (o : Options) (text : Bytes)
    (h : Options.ofConfig config = .ok o) :
    ∃ issues, T.lint config text false = .ok issues ∧
      ∀ before t k line, BeginsIn T text before t k line →
        (t.kind = .comment → ¬ ReportsIndent issues k) ∧
        (t.kind = .text → ∀ n ∈ verbatimElements, Inside n before →
          (ReportsIndent issues k ↔
            Misindented o line ∧ ∃ m ∈ verbatimElements, m ≠ n ∧ LastEnded m before)) := by
  refine ⟨T.check o text, lint_eq_check h text,
    fun before t k line hbegins => ⟨fun hkind => ?_, ?_⟩⟩
  · rw [reportsIndent_iff_of_beginsIn hbegins (.inl (by simp [hkind]))]
    simp [Token.isVerbatim, hkind]
  · intro hkind n hn hinside
    have hne : before ≠ [] := by
      obtain ⟨a, u, b, rfl, -⟩ := hinside
      simp
    rw [reportsIndent_iff_of_beginsIn hbegins (.inr hne),
      ← not_iff_comm.mp (isSome_open_iff hn hinside).symm]
    simp [Token.isVerbatim, hkind]

-- tokens of documents with a text area inside a preformatted text
def preStart : Token := ⟨.startTag, Bytes.ofString "<pre>", Bytes.ofString "pre"⟩
def preEnd : Token := ⟨.endTag, Bytes.ofString "</pre>", Bytes.ofString "pre"⟩
def areaStart : Token := ⟨.startTag, Bytes.ofString "<textarea>", Bytes.ofString "textarea"⟩
def areaEnd : Token := ⟨.endTag, Bytes.ofString "</textarea>", Bytes.ofString "textarea"⟩
def textToken (s : String) : Token := ⟨.text, Bytes.ofString s, []⟩
def noteToken : Token := ⟨.comment, Bytes.ofString "<!--\n  c-->", []⟩

theorem lastEnded_area (before : List Token) :
    LastEnded (Bytes.ofString "textarea") (before ++ [areaStart, areaEnd]) := by
  refine ⟨before, areaStart, [areaEnd], rfl, ⟨rfl, rfl⟩, ?_, areaEnd, List.mem_singleton_self _,
    rfl, rfl⟩
  intro u hu n hn hstarts
  rw [List.mem_singleton.mp hu] at hstarts
  exact absurd hstarts.1 (by decide)

/-- Lines in a preformatted text before and behind a text area, and a line in a comment. -/
def aroundArea : Bytes := Bytes.ofString "<pre>\n  a<textarea></textarea>\n  b</pre><!--\n  c-->"

/-- The line behind the text area is reported, the ones before it and in the comment are not. -/
theorem verbatim_line_reported_iff_aroundArea :
    ∃ issues, lint [] aroundArea false = .ok issues ∧
      ¬ ReportsIndent issues 1 ∧ ReportsIndent issues 2 ∧ ¬ ReportsIndent issues 3 := by
  obtain ⟨issues, hlint, hreports⟩ :=
    verbatim_line_reported_iff .html [] unconfigured aroundArea ofConfig_nil
  have hpre : Bytes.ofString "pre" ∈ verbatimElements := by decide
  have harea : Bytes.ofString "textarea" ∈ verbatimElements := by decide
  have htokens : tokens aroundArea =
      [preStart, textToken "\n  a", areaStart, areaEnd, textToken "\n  b", preEnd, noteToken] := by
    decide +kernel
  have hsource : Source.ofText aroundArea = ⟨aroundArea,
      #[Bytes.ofString "<pre>", Bytes.ofString "  a<textarea></textarea>",
        Bytes.ofString "  b</pre><!--", Bytes.ofString "  c-->"], #[0, 6, 31, 45]⟩ := by
    decide +kernel
  have hfirst : BeginsIn .html aroundArea [preStart] (textToken "\n  a") 1
      (Bytes.ofString "  a<textarea></textarea>") :=
    ⟨⟨_, htokens⟩, by rw [hsource]; rfl, 6, by rw [hsource]; rfl, by decide, by decide⟩
  have hsecond : BeginsIn .html aroundArea [preStart, textToken "\n  a", areaStart, areaEnd]
      (textToken "\n  b") 2 (Bytes.ofString "  b</pre><!--") :=
    ⟨⟨_, htokens⟩, by rw [hsource]; rfl, 31, by rw [hsource]; rfl, by decide, by decide⟩
  have hthird : BeginsIn .html aroundArea
      [preStart, textToken "\n  a", areaStart, areaEnd, textToken "\n  b", preEnd] noteToken 3
      (Bytes.ofString "  c-->") :=
    ⟨⟨_, htokens⟩, by rw [hsource]; rfl, 45, by rw [hsource]; rfl, by decide, by decide⟩
  have hin : Inside (Bytes.ofString "pre") [preStart] :=
    ⟨[], preStart, [], rfl, ⟨rfl, rfl⟩, by simp⟩
  have hin' : Inside (Bytes.ofString "pre") [preStart, textToken "\n  a", areaStart, areaEnd] := by
    refine ⟨[], preStart, _, rfl, ⟨rfl, rfl⟩, ?_⟩
    simp [Token.Ends, textToken, areaStart, areaEnd]
    decide
  refine ⟨issues, hlint, fun hreported => ?_, ?_, (hreports _ _ _ _ hthird).1 rfl⟩
  · exact (isSome_open_iff hpre hin).mp rfl
      (((hreports _ _ _ _ hfirst).2 rfl _ hpre hin).mp hreported).2
  · refine ((hreports _ _ _ _ hsecond).2 rfl _ hpre hin').mpr
      ⟨⟨by decide, by decide, by decide⟩, ?_⟩
    exact ⟨_, harea, by decide, lastEnded_area [preStart, textToken "\n  a"]⟩

/-- Behind a text area that has ended, the text of a preformatted element is not left alone. -/
theorem preformatted_text_reported :
    ∃ text before t line issues, BeginsIn .html text before t 1 line ∧ t.kind = .text ∧
      Inside (Bytes.ofString "pre") before ∧ Bytes.ofString "pre" ∈ verbatimElements ∧
      lint [] text false = .ok issues ∧ ReportsIndent issues 1 := by
  have hbegins : BeginsIn .html (Bytes.ofString "<pre><textarea></textarea>\n  x</pre>")
      [preStart, areaStart, areaEnd] (textToken "\n  x") 1 (Bytes.ofString "  x</pre>") :=
    ⟨⟨[preEnd], by decide +kernel⟩, by decide +kernel, 27, by decide +kernel, by decide, by decide⟩
  refine ⟨_, _, _, _, _, hbegins, rfl, ⟨[], preStart, _, rfl, ⟨rfl, rfl⟩, ?_⟩, by decide,
    lint_eq_check (T := .html) ofConfig_nil _, ?_⟩
  · simp [Token.Ends, areaStart, areaEnd]
    decide
  · refine (reportsIndent_iff_of_beginsIn hbegins (.inr (by simp))).mpr
      ⟨⟨by decide, by decide, by decide⟩, ?_⟩
    decide

end MarkupLint.Rule
