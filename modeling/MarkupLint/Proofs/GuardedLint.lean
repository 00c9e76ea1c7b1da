/-
  Linting, with every operation guarded that is not defined on all its arguments: the remainder by
  the width of an indentation, the table of naming styles, the indices of the line table and the
  slices of the text.

  The linter is written here once more with these operations. Each part of it is shown to run
  without a fault and to give what the linter itself gives. What it takes for that is little:
  offsets lie in the text, a style that is set is in the table, and a width of zero turns the rule
  off before anything is divided.
-/
import MarkupLint.Proofs.GuardedPlaces
import MarkupLint.Proofs.Lists
import MarkupLint.Proofs.OptionKinds

namespace MarkupLint.Guarded

open Markup Rule

/-! ## The outline -/

def lineOf (s : Source) (offset : Nat) : Except Fault Nat := do
  let p ← place s offset
  pure p.line

/-- The lines, latest first, that begin inside of a piece. -/
def linesBegunIn (s : Source) (offset n : Nat) : Except Fault (List Nat) := do
  let first ← lineOf s offset
  let last ← lineOf s (max (offset + n - 1) offset)
  pure (List.range' (first + 1) (last - first)).reverse

/-- One token further. -/
def step (s : Source) (st : OutlineState) (t : Token) : Except Fault OutlineState := do
  let next := { st with offset := st.offset + t.raw.length }
  match t.kind with
  | .startTag =>
    let as ← attributes t.raw
    pure { next with
      tags := ⟨t.name, st.offset, as⟩ :: st.tags
      open? := if verbatimElements.contains t.name then some t.name else st.open? }
  | .selfClosingTag =>
    let as ← attributes t.raw
    pure { next with tags := ⟨t.name, st.offset, as⟩ :: st.tags }
  | .endTag => pure (if st.open? = some t.name then { next with open? := none } else next)
  | .text =>
    if st.open?.isSome then
      let ls ← linesBegunIn s st.offset t.raw.length
      pure { next with verbatim := ls ++ st.verbatim }
    else pure next
  | .comment =>
    let ls ← linesBegunIn s st.offset t.raw.length
    pure { next with verbatim := ls ++ st.verbatim }
  | .doctype => pure next

def outline (tokens : Bytes → List Token) (s : Source) : Except Fault Outline := do
  let st ← (tokens s.text).foldlM (step s) OutlineState.start
  pure ⟨st.tags.reverse, st.verbatim.reverse⟩

section Outline

variable {text : Bytes}

/-- The line of an offset in the text is found without a fault. -/
theorem lineOf_eq {offset : Nat} (h : offset ≤ text.length) :
    lineOf (.ofText text) offset = .ok ((Source.ofText text).lineAt offset) := by
  unfold lineOf
  rw [place_eq h, ok_bind]
  rfl

theorem linesBegunIn_eq {offset n : Nat} (h : offset + n ≤ text.length) :
    linesBegunIn (.ofText text) offset n =
      .ok (OutlineState.linesBegunIn (.ofText text) offset n) := by
  unfold linesBegunIn
  rw [lineOf_eq (by omega), ok_bind, lineOf_eq (by omega), ok_bind]
  rfl

/-- A token that ends in the text is stepped over without a fault. -/
theorem step_eq {st : OutlineState} {t : Token} (h : st.offset + t.raw.length ≤ text.length) :
    step (.ofText text) st t = .ok (st.step (.ofText text) t) := by
  unfold step OutlineState.step
  cases t.kind with
  | startTag => simp only [attributes_eq, ok_bind, pure_eq_ok]
  | selfClosingTag => simp only [attributes_eq, ok_bind, pure_eq_ok]
  | endTag => rfl
  -- text counts only inside of an element that is kept as it is
  | text =>
    cases st.open? with
    | none => rfl
    | some name => simp only [linesBegunIn_eq h, ok_bind, pure_eq_ok, Option.isSome_some, if_true]
  | comment => simp only [linesBegunIn_eq h, ok_bind, pure_eq_ok]
  | doctype => rfl

/-- The offset reached and what is left of the text never exceed the text. -/
theorem foldlM_step_eq {s : Bytes} {ts : List Token} (hcut : Cut s ts) (st : OutlineState)
    (h : st.offset + s.length ≤ text.length) :
    ts.foldlM (step (.ofText text)) st = .ok (ts.foldl (OutlineState.step (.ofText text)) st) := by
  induction hcut generalizing st with
  | nil s => rfl
  -- the invariant is kept, as the bytes of the token go from what is left to the offset
  | cons t r ts htag hrest ih =>
    rw [List.length_append] at h
    rw [List.foldlM_cons, step_eq (by omega), ok_bind, List.foldl_cons]
    apply ih
    rw [OutlineState.step_offset]
    omega

/-- The outline is taken without a fault. Tokens are cut from the text one behind the other, so each
    of them ends in it. -/
theorem outline_eq (T : Tokenizer) (text : Bytes) :
    outline T.tokens (.ofText text) = .ok (T.outline (.ofText text)) := by
  have hfold := foldlM_step_eq (T.cut text) .start (Nat.le_of_eq (Nat.zero_add _))
  unfold outline
  show ((T.tokens text).foldlM (step (.ofText text)) .start >>= fun st => _) = _
  rw [hfold, ok_bind]
  rfl

/-- The tag and its attributes begin in the text. -/
structure OffsetsIn (text : Bytes) (t : Tag) : Prop where
  tag : t.offset ≤ text.length
  attributes : ∀ a ∈ t.attributes, t.offsetOf a ≤ text.length

/-- Whatever is in the outline was read from the text. -/
theorem offsetsIn_of_mem_outline {T : Tokenizer} {t : Tag}
    (ht : t ∈ (T.outline (.ofText text)).tags) : OffsetsIn text t := by
  obtain ⟨raw, hread⟩ := (outline_in_order T text).1 t ht
  have hstands := hread.standsIn.mono hread.length_le
  exact ⟨Nat.le_of_lt hstands.offset_lt,
    fun a ha => Nat.le_of_lt (hstands.attributes_in a ha).2.offset_lt⟩

end Outline

/-! ## The rules -/

/-- The name by which a style is looked up; without a style it is empty. -/
def styleName : Option NameStyle → String
  | none => ""
  | some style => style.text

/-- The style of a name in the table of styles. -/
def formatOf (name : String) : Except Fault NameStyle :=
  match NameStyle.ofText? name with
  | some style => .ok style
  | none => .error (.noEntry name)

/-- The remainder of a division. -/
def modulus (n d : Nat) : Except Fault Nat := if d = 0 then .error .zeroModulus else .ok (n % d)

def issueAt (s : Source) (offset : Nat) (code rule : String) (data : IssueData) :
    Except Fault Issue := do
  let p ← place s offset
  pure { code, rule, line := p.line, column := p.column, data }

/-- An issue, if there is one to report. -/
def reportIf (b : Bool) (issue : Except Fault Issue) : Except Fault (List Issue) := do
  if b then
    let i ← issue
    pure [i]
  else pure []

def checkBan (s : Source) (o : Options) (offset : Nat) (a : Attribute) :
    Except Fault (List Issue) :=
  reportIf ((o.attrBans.getD []).contains (lowerName a))
    (issueAt s offset "E001" "attr-bans" { attr := a.name.toText })

def checkNameStyle (s : Source) (o : Options) (offset : Nat) (a : Attribute) :
    Except Fault (List Issue) := do
  let name := styleName o.attrNameStyle
  if name = "" then pure []
  else
    let style ← formatOf name
    reportIf (!style.accepts (Utf8.chars a.name))
      (issueAt s offset "E002" "attr-name-style" { attr := a.name.toText, format := name })

def checkDuplicate (s : Source) (o : Options) (seen : List String) (offset : Nat) (a : Attribute) :
    Except Fault (List Issue) :=
  reportIf (o.attrNoDup && seen.contains (lowerName a))
    (issueAt s offset "E003" "attr-no-dup" { attr := a.name.toText })

/-- A word of a value; the style is looked up for each of them. -/
def checkWord (s : Source) (name : String) (offset : Nat) (a : Attribute) (w : List Char) :
    Except Fault (List Issue) := do
  let style ← formatOf name
  reportIf (!style.accepts w) (issueAt s offset "E011" "id-class-style"
    { attr := a.name.toText, value := String.ofList w, format := name })

def checkWords (s : Source) (name : String) (offset : Nat) (a : Attribute) (ws : List (List Char)) :
    Except Fault (List Issue) := do
  let found ← ws.mapM (checkWord s name offset a)
  pure found.flatten

def checkValueStyle (s : Source) (o : Options) (offset : Nat) (a : Attribute) :
    Except Fault (List Issue) := do
  let name := styleName o.idClassStyle
  if name = "" then pure []
  else match a.value with
    | none => pure []
    | some value =>
      if lowerName a == "id" || lowerName a == "class" then
        checkWords s name offset a (Blank.words (Utf8.chars value))
      else pure []

def checkId (s : Source) (o : Options) (ids : List Bytes) (offset : Nat) (a : Attribute) :
    Except Fault (List Issue) :=
  reportIf (o.idNoDup && isId a && ids.contains (valueOf a))
    (issueAt s offset "E012" "id-no-dup" { attr := a.name.toText, value := (valueOf a).toText })

def checkAttribute (s : Source) (o : Options) (seen : Seen) (offset : Nat) (a : Attribute) :
    Except Fault (List Issue) := do
  let bans ← checkBan s o offset a
  let names ← checkNameStyle s o offset a
  let duplicates ← checkDuplicate s o seen.names offset a
  let values ← checkValueStyle s o offset a
  let ids ← checkId s o seen.ids offset a
  pure (bans ++ names ++ duplicates ++ values ++ ids)

def checkAttributes (s : Source) (o : Options) (t : Tag) (seen : Seen) :
    List Attribute → Except Fault (List Issue × Seen)
  | [] => pure ([], seen)
  | a :: as => do
    let first ← checkAttribute s o seen (t.offsetOf a) a
    let (rest, last) ← checkAttributes s o t (seen.after a) as
    pure (first ++ rest, last)

/-- The attributes on the line of their tag; the lines are looked up even where the rule is off. -/
def onFirstLine (s : Source) (t : Tag) : Except Fault Nat := do
  let first ← lineOf s t.offset
  let lines ← t.attributes.mapM fun a => lineOf s (t.offsetOf a)
  pure (lines.countP (· == first))

def checkNewLine (s : Source) (o : Options) (t : Tag) : Except Fault (List Issue) := do
  let count ← onFirstLine s t
  reportIf (0 < o.attrNewLine && o.attrNewLine < count)
    (issueAt s t.offset "E037" "attr-new-line" { limit := o.attrNewLine })

def checkTags (s : Source) (o : Options) (ids : List Bytes) : List Tag → Except Fault (List Issue)
  | [] => pure []
  | t :: ts => do
    let (issues, seen) ← checkAttributes s o t ⟨[], ids⟩ t.attributes
    let lines ← checkNewLine s o t
    let rest ← checkTags s o seen.ids ts
    pure (issues ++ lines ++ rest)

def checkIndent (o : Options) (verbatim : List Nat) (number : Nat) (line : Bytes) :
    Except Fault (List Issue) := do
  if verbatim.contains number || Blank.isBlankLine line then pure []
  else
    let odd ← modulus (indentOf line) o.indentWidth
    pure (if odd == 0 then []
      else [{ code := "E036", rule := "indent-width", line := number, column := indentOf line,
              data := { width := o.indentWidth } }])

def checkLines (o : Options) (verbatim : List Nat) (number : Nat) :
    List Bytes → Except Fault (List Issue)
  | [] => pure []
  | l :: ls => do
    let first ← checkIndent o verbatim number l
    let rest ← checkLines o verbatim (number + 1) ls
    pure (first ++ rest)

def check (tokens : Bytes → List Token) (o : Options) (text : Bytes) :
    Except Fault (List Issue) := do
  let s := Source.ofText text
  let out ← outline tokens s
  let lines ← if o.indentWidth = 0 then pure [] else checkLines o out.verbatim 0 s.lines.toList
  let found ← checkTags s o [] out.tags
  pure ((lines ++ found).mergeSort notAfter)

/-- Lints a document, with nothing to cancel it. -/
def lint (tokens : Bytes → List Token) (config : Config) (text : Bytes) :
    Except Fault (Except LintError (List Issue)) :=
  match Options.ofConfig config with
  | .error e => pure (.error (.option e))
  | .ok o => do
    let issues ← check tokens o text
    pure (.ok issues)

/-! ## No rule faults -/

/-- The table has every style under its name. -/
theorem formatOf_text (style : NameStyle) : formatOf style.text = .ok style := by
  cases style <;> rfl

/-- No style has the empty name, which stands for none. -/
theorem text_ne_empty (style : NameStyle) : style.text ≠ "" := by
  cases style <;> decide

theorem reportIf_eq {b : Bool} {issue : Except Fault Issue} {i : Issue} (h : issue = .ok i) :
    reportIf b issue = .ok (if b then [i] else []) := by
  subst h
  cases b <;> rfl

section Rules

variable {text : Bytes} {o : Options} {offset : Nat} {a : Attribute}

/-- An issue at an offset in the text has a place. -/
theorem issueAt_eq (h : offset ≤ text.length) (code rule : String) (data : IssueData) :
    issueAt (.ofText text) offset code rule data =
      .ok (Rule.issueAt (.ofText text) offset code rule data) := by
  unfold issueAt
  rw [place_eq h, ok_bind]
  rfl

/-- The style of names is looked up only if there is one. -/
theorem checkNameStyle_eq (h : offset ≤ text.length) :
    checkNameStyle (.ofText text) o offset a =
      .ok (Rule.checkNameStyle (.ofText text) o offset a) := by
  unfold checkNameStyle Rule.checkNameStyle
  cases o.attrNameStyle with
  | none => rfl
  | some style =>
    simp only [styleName, if_neg (text_ne_empty style), formatOf_text, ok_bind]
    rw [reportIf_eq (issueAt_eq h ..)]
    cases style.accepts (Utf8.chars a.name) <;> rfl

theorem checkWord_eq (h : offset ≤ text.length) (style : NameStyle) (w : List Char) :
    checkWord (.ofText text) style.text offset a w = .ok (if !style.accepts w then
      [Rule.issueAt (.ofText text) offset "E011" "id-class-style"
        { attr := a.name.toText, value := String.ofList w, format := style.text }] else []) := by
  unfold checkWord
  rw [formatOf_text, ok_bind, reportIf_eq (issueAt_eq h ..)]

/-- The style of values is looked up once a word, and is in the table each time. -/
theorem checkWords_eq (h : offset ≤ text.length) (style : NameStyle) (ws : List (List Char)) :
    checkWords (.ofText text) style.text offset a ws =
      .ok ((ws.filter fun w => !style.accepts w).map fun w =>
        Rule.issueAt (.ofText text) offset "E011" "id-class-style"
          { attr := a.name.toText, value := String.ofList w, format := style.text }) := by
  unfold checkWords
  rw [mapM_eq_map fun w _ => checkWord_eq h style w, ok_bind, flatten_map_if, pure_eq_ok]

theorem checkValueStyle_eq (h : offset ≤ text.length) :
    checkValueStyle (.ofText text) o offset a =
      .ok (Rule.checkValueStyle (.ofText text) o offset a) := by
  unfold checkValueStyle Rule.checkValueStyle
  cases o.idClassStyle with
  | none => rfl
  | some style =>
    show (if style.text = "" then _ else _) = _
    rw [if_neg (text_ne_empty style)]
    cases a.value with
    | none => rfl
    | some value =>
      show (if _ then _ else _) = Except.ok (if _ then _ else _)
      split
      · exact checkWords_eq h style _
      · rfl

/-- No rule on attributes faults at an attribute that begins in the text. -/
theorem checkAttribute_eq (h : offset ≤ text.length) (seen : Seen) :
    checkAttribute (.ofText text) o seen offset a =
      .ok (Rule.checkAttribute (.ofText text) o seen offset a) := by
  unfold checkAttribute checkBan checkDuplicate checkId
  simp only [reportIf_eq (issueAt_eq h ..), checkNameStyle_eq h, checkValueStyle_eq h, ok_bind]
  rfl

theorem checkAttributes_eq {t : Tag} {as : List Attribute}
    (h : ∀ a ∈ as, t.offsetOf a ≤ text.length) (seen : Seen) :
    checkAttributes (.ofText text) o t seen as =
      .ok (Rule.checkAttributes (.ofText text) o t seen as) := by
  induction as generalizing seen with
  | nil => rfl
  | cons a as ih =>
    rw [checkAttributes, checkAttribute_eq (h a List.mem_cons_self), ok_bind,
      ih fun b hb => h b (List.mem_cons_of_mem _ hb)]
    rfl

/-- All lines that are compared are those of offsets in the text. -/
theorem onFirstLine_eq {t : Tag} (h : OffsetsIn text t) :
    onFirstLine (.ofText text) t = .ok (Rule.onFirstLine (.ofText text) t) := by
  unfold onFirstLine Rule.onFirstLine
  rw [lineOf_eq h.tag, ok_bind, mapM_eq_map fun a ha => lineOf_eq (h.attributes a ha), ok_bind,
    List.countP_map]
  rfl

theorem checkNewLine_eq {t : Tag} (h : OffsetsIn text t) :
    checkNewLine (.ofText text) o t = .ok (Rule.checkNewLine (.ofText text) o t) := by
  unfold checkNewLine
  rw [onFirstLine_eq h, ok_bind, reportIf_eq (issueAt_eq h.tag ..)]
  rfl

/-- No rule on tags faults at tags that were read from the text. -/
theorem checkTags_eq {ts : List Tag} (h : ∀ t ∈ ts, OffsetsIn text t) (ids : List Bytes) :
    checkTags (.ofText text) o ids ts = .ok (Rule.checkTags (.ofText text) o ids ts) := by
  induction ts generalizing ids with
  | nil => rfl
  | cons t ts ih =>
    have ht := h t List.mem_cons_self
    rw [checkTags, checkAttributes_eq ht.attributes, ok_bind]
    simp only [checkNewLine_eq ht, ih fun u hu => h u (List.mem_cons_of_mem _ hu), ok_bind]
    rfl

/-- A width that is not zero can be divided by. -/
theorem checkIndent_eq (h : o.indentWidth ≠ 0) (verbatim : List Nat) (number : Nat) (l : Bytes) :
    checkIndent o verbatim number l = .ok (Rule.checkIndent o verbatim number l) := by
  unfold checkIndent Rule.checkIndent
  cases hskip : verbatim.contains number || Blank.isBlankLine l with
  | true => simp
  | false =>
    simp only [modulus, if_neg h, ok_bind, pure_eq_ok, Bool.false_or, Bool.false_eq_true, if_false]

/-- The rule on lines reads no offsets, so the width is all that matters. -/
theorem checkLines_eq (h : o.indentWidth ≠ 0) (verbatim : List Nat) (number : Nat)
    (ls : List Bytes) :
    checkLines o verbatim number ls = .ok (Rule.checkLines o verbatim number ls) := by
  induction ls generalizing number with
  | nil => rfl
  | cons l ls ih =>
    rw [checkLines, checkIndent_eq h, ok_bind, ih, ok_bind]
    rfl

end Rules

/-- Checking a text never faults, whatever the options are. -/
theorem check_eq (T : Tokenizer) (o : Options) (text : Bytes) :
    check T.tokens o text = .ok (T.check o text) := by
  unfold check Tokenizer.check checkWith
  have hin : ∀ t ∈ (T.outline (.ofText text)).tags, OffsetsIn text t :=
    fun t => offsetsIn_of_mem_outline
  simp only [outline_eq, ok_bind, checkTags_eq hin, pure_eq_ok]
  -- a width of zero turns the rule on lines off before anything is divided by it
  split
  · rfl
  · rename_i hwidth
    rw [checkLines_eq hwidth, ok_bind]

/-- Linting does not fault, as a configuration that is rejected is not linted with. -/
theorem lint_eq (T : Tokenizer) (config : Config) (text : Bytes) :
    lint T.tokens config text = .ok (T.lint config text false) := by
  unfold lint Tokenizer.lint lintWith
  cases Options.ofConfig config with
  | error e => rfl
  | ok o => simp only [check_eq, ok_bind, pure_eq_ok, Bool.false_eq_true, if_false]

/-! ## Configurations -/

/-- A style that is set is one of the table. -/
theorem styleName_mem (style? : Option NameStyle) :
    styleName style? ∈ "" :: NameStyle.all.map NameStyle.text := by
  cases style? with
  | none => exact List.mem_cons_self
  | some style =>
    apply List.mem_cons_of_mem
    apply List.mem_map_of_mem
    cases style <;> decide

/-- **Options that are accepted make linting safe.** A configuration is rejected just when one of
    the seven rules has a value that is not of its kind; the error then names that rule and tells
    that value, and no other key counts. If it is accepted, both numbers are below `2 ^ 31` and both
    styles are unset or in the table. And linting any text with any configuration never faults: it
    gives what the linter gives, with every remainder, table entry, index and slice on the way
    defined. -/
theorem accepted_options_safe (T : Tokenizer) (config : Config) :
    ((∃ e, Options.ofConfig config = .error e) ↔ ∃ r v, Options.Rejects config r v) ∧
    (∀ e, Options.ofConfig config = .error e → ∃ r : RuleName, e.key = r.key ∧
      Options.Rejects config r e.value) ∧
    (∀ other : Config, (∀ r : RuleName, other.get? r.key = config.get? r.key) →
      Options.ofConfig other = Options.ofConfig config) ∧
    (∀ o, Options.ofConfig config = .ok o →
      o.indentWidth ≤ 2 ^ 31 - 1 ∧ o.attrNewLine ≤ 2 ^ 31 - 1 ∧
      styleName o.attrNameStyle ∈ "" :: NameStyle.all.map NameStyle.text ∧
      styleName o.idClassStyle ∈ "" :: NameStyle.all.map NameStyle.text) ∧
    ∀ text, lint T.tokens config text = .ok (T.lint config text false) := by
  refine ⟨Options.ofConfig_fails_iff, fun e => Options.rejects_of_error,
    fun other => Options.ofConfig_congr, fun o ho => ?_, lint_eq T config⟩
  obtain ⟨-, -, -, -, -, hindent, hlines⟩ := Options.ofConfig_eq_ok.mp ho
  exact ⟨Options.option_number_le (by decide) hindent, Options.option_number_le (by decide) hlines,
    styleName_mem _, styleName_mem _⟩

end MarkupLint.Guarded
