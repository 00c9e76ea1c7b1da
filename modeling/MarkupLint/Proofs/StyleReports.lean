/-
  What the rules on styles report under one style and under another.

  A rule looks at certain texts of a document (`styledAmong`), whatever the style, and reports those
  that are not of it (`checkTags_only_style`). Issues are sorted by places, and these do not depend
  on the style either, so what is found under one style is a selection from what is found under the
  strictest (`findings_sublist`). Two configurations with different styles are still read with the
  same failures, and `Alike` carries that along.
-/
import MarkupLint.Proofs.Duplicates
import MarkupLint.Proofs.NamingStyles
import MarkupLint.Proofs.OptionKinds

namespace MarkupLint

/-! ## Results that go together -/

/-- Both fail, and for the same reason, or both succeed, with results that are related. -/
inductive Alike {ε α β : Type} (R : α → β → Prop) : Except ε α → Except ε β → Prop where
  | error (e : ε) : Alike R (.error e) (.error e)
  | ok {a : α} {b : β} (h : R a b) : Alike R (.ok a) (.ok b)

theorem Alike.of_eq {ε α : Type} {x y : Except ε α} (h : y = x) : Alike Eq x y := by
  subst h
  cases y with
  | error e => exact .error e
  | ok a => exact .ok rfl

/-- Computations that go on alike are alike. -/
theorem Alike.bind {ε α β γ δ : Type} {R : α → β → Prop} {S : γ → δ → Prop} {x : Except ε α}
    {y : Except ε β} {f : α → Except ε γ} {g : β → Except ε δ} (h : Alike R x y)
    (hfg : ∀ a b, R a b → Alike S (f a) (g b)) : Alike S (x >>= f) (y >>= g) := by
  cases h with
  | error e => exact .error e
  | ok hab => exact hfg _ _ hab

/-! ## Configurations -/

namespace Options

/-- The style is the same, or it was the strictest one and another one takes its place. -/
def StyleChange (x y : Option NameStyle) : Prop := y = x ∨ x = some .lowercase ∧ y.isSome = true

/-- A configuration with the same options as another, but for styles that take the place of the
    strictest one. -/
def Restyles (config other : Config) : Prop :=
  ∀ r : RuleName, other.get? r.key = config.get? r.key ∨
    r.kind = .style ∧ config.get? r.key = some (.text NameStyle.lowercase.text) ∧
      ∃ style : NameStyle, other.get? r.key = some (.text style.text)

/-- The options of such configurations. -/
structure Restyled (o o' : Options) : Prop where
  attrBans : o'.attrBans = o.attrBans
  attrNameStyle : StyleChange o.attrNameStyle o'.attrNameStyle
  attrNoDup : o'.attrNoDup = o.attrNoDup
  idClassStyle : StyleChange o.idClassStyle o'.idClassStyle
  idNoDup : o'.idNoDup = o.idNoDup
  indentWidth : o'.indentWidth = o.indentWidth
  attrNewLine : o'.attrNewLine = o.attrNewLine

variable {config other : Config} {o o' : Options}

/-- An option is read from its own key. -/
theorem option_congr {α : Type} {key : String} {default : α} {kind : ConfigValue → Option α}
    (h : other.get? key = config.get? key) :
    option other key default kind = option config key default kind := by
  unfold option
  rw [h]

/-- The text of a style is read as the style. -/
theorem option_style {key : String} {default : Option NameStyle} {style : NameStyle}
    (h : config.get? key = some (.text style.text)) :
    option config key default style? = .ok (some style) := by
  simp [option, h, style?, ofText?_eq_some_iff.mpr rfl]

/-- All options but styles are the same. -/
theorem Restyles.get?_eq (h : Restyles config other) {r : RuleName} (hr : r.kind ≠ .style) :
    other.get? r.key = config.get? r.key := by
  rcases h r with heq | ⟨hstyle, -⟩
  · exact heq
  · exact absurd hstyle hr

/-- A style is read as before, or as another one in the place of the strictest. -/
theorem Restyles.style_alike (h : Restyles config other) (r : RuleName)
    (default : Option NameStyle) :
    Alike StyleChange (option config r.key default style?) (option other r.key default style?) := by
  rcases h r with heq | ⟨-, hold, style, hnew⟩
  · rw [option_congr heq]
    cases option config r.key default style? with
    | error e => exact .error e
    | ok x => exact .ok (.inl rfl)
  · rw [option_style hold, option_style hnew]
    exact .ok (.inr ⟨rfl, rfl⟩)

/-- Such configurations are read alike. -/
theorem Restyles.ofConfig_alike (h : Restyles config other) :
    Alike Restyled (ofConfig config) (ofConfig other) := by
  -- options that are no styles are the same, so reading them is
  have hsame : ∀ {α : Type} (r : RuleName) (default : α) (kind : ConfigValue → Option α),
      r.kind ≠ .style →
      Alike Eq (option config r.key default kind) (option other r.key default kind) :=
    fun r _ _ hr => .of_eq (option_congr (h.get?_eq hr))
  unfold ofConfig
  refine (hsame .attrBans _ _ (by decide)).bind fun b b' hbans => ?_
  refine (h.style_alike .attrNameStyle _).bind fun n n' hname => ?_
  refine (hsame .attrNoDup _ _ (by decide)).bind fun d d' hdup => ?_
  refine (h.style_alike .idClassStyle _).bind fun v v' hvalue => ?_
  refine (hsame .idNoDup _ _ (by decide)).bind fun i i' hids => ?_
  refine (hsame .indentWidth _ _ (by decide)).bind fun w w' hindent => ?_
  refine (hsame .attrNewLine _ _ (by decide)).bind fun l l' hlines => ?_
  exact .ok ⟨hbans.symm, hname, hdup.symm, hvalue, hids.symm, hindent.symm, hlines.symm⟩

end Options

namespace Rule

open Markup

variable {T : Tokenizer} {s : Source} {o o' : Options} {r : RuleName} {style : NameStyle}

/-! ## The texts that have a style -/

/-- A text that has to be of a style, and the attribute that it is found at. -/
abbrev Styled := (Tag × Attribute) × List Char

/-- The texts of an attribute that a rule on styles looks at: its name, or the words of an `id` or
    `class`. -/
def wordsOf (r : RuleName) (a : Attribute) : List (List Char) :=
  match r with
  | .attrNameStyle => [Utf8.chars a.name]
  | .idClassStyle =>
    if lowerName a == "id" || lowerName a == "class" then Blank.words (Utf8.chars (valueOf a))
    else []
  | _ => []

/-- The texts of some attributes. -/
def styledAmong (r : RuleName) (ps : List (Tag × Attribute)) : List Styled :=
  ps.flatMap fun p => (wordsOf r p.2).map fun w => (p, w)

/-- The style that a rule asks for. -/
def styleOf (r : RuleName) (o : Options) : Option NameStyle :=
  match r with
  | .attrNameStyle => o.attrNameStyle
  | .idClassStyle => o.idClassStyle
  | _ => none

/-- The issue on a text that is not of the style. -/
def styleIssue (r : RuleName) (s : Source) (style : NameStyle) (x : Styled) : Issue :=
  issueAt s (offsetIn x.1) r.code r.key
    { attr := x.1.2.name.toText
      value := if r = .idClassStyle then String.ofList x.2 else ""
      format := style.text }

/-- The issues of a rule on single attributes, tag by tag. -/
theorem checkTags_only_eq_flatMap {g : Tag × Attribute → List Issue} (hr : r ≠ .attrNewLine)
    (h : ∀ seen t a, checkAttribute s (o.only r) seen (t.offsetOf a) a = g (t, a))
    (ids : List Bytes) (ts : List Tag) :
    checkTags s (o.only r) ids ts = (occurrences ts).flatMap g := by
  -- what was seen before does not matter to such a rule
  have hattributes : ∀ t seen as,
      (checkAttributes s (o.only r) t seen as).1 = (as.map fun a => (t, a)).flatMap g := by
    intro t seen as
    induction as generalizing seen with
    | nil => rfl
    | cons a as ih =>
      show checkAttribute s (o.only r) seen (t.offsetOf a) a ++
        (checkAttributes s (o.only r) t (seen.after a) as).1 = _
      rw [h, ih]
      rfl
  induction ts generalizing ids with
  | nil => rfl
  | cons t ts ih =>
    show (checkAttributes s (o.only r) t ⟨[], ids⟩ t.attributes).1 ++
      checkNewLine s (o.only r) t ++ checkTags s (o.only r) _ ts = _
    rw [hattributes, (governedBy_checkNewLine s t).other o r hr, ih, List.append_nil,
      ← List.flatMap_append]
    rfl

/-- With the other rules turned off, the issues of an attribute are those on its texts. -/
theorem checkAttribute_only_style (hr : r.kind = .style) (h : styleOf r o = some style)
    (seen : Seen) (t : Tag) (a : Attribute) :
    checkAttribute s (o.only r) seen (t.offsetOf a) a =
      (((wordsOf r a).map fun w => ((t, a), w)).filter fun x => !style.accepts x.2).map
        (styleIssue r s style) := by
  cases r with
  -- all other checks of the attribute are off
  | attrNameStyle =>
    rw [checkAttribute, (governedBy_checkBan s _ a).other o .attrNameStyle (by decide),
      (governedBy_checkDuplicate s _ a seen.names).other o .attrNameStyle (by decide),
      (governedBy_checkValueStyle s _ a).other o .attrNameStyle (by decide),
      (governedBy_checkId s _ a seen.ids).other o .attrNameStyle (by decide),
      (governedBy_checkNameStyle s _ a).own o]
    have hstyle : o.attrNameStyle = some style := h
    by_cases haccepts : style.accepts (Utf8.chars a.name) = true
    · simp [checkNameStyle, hstyle, haccepts, wordsOf]
    · simp [checkNameStyle, hstyle, haccepts, wordsOf, styleIssue, offsetIn, RuleName.code,
        RuleName.key]
  | idClassStyle =>
    rw [checkAttribute, (governedBy_checkBan s _ a).other o .idClassStyle (by decide),
      (governedBy_checkNameStyle s _ a).other o .idClassStyle (by decide),
      (governedBy_checkDuplicate s _ a seen.names).other o .idClassStyle (by decide),
      (governedBy_checkId s _ a seen.ids).other o .idClassStyle (by decide),
      (governedBy_checkValueStyle s _ a).own o]
    have hstyle : o.idClassStyle = some style := h
    cases hvalue : a.value with
    | none =>
      -- without a value there are no words
      have hwords : wordsOf .idClassStyle a = [] := by
        simp [wordsOf, valueOf, hvalue, Utf8.chars, Utf8.charsFrom, Blank.words, Blank.wordsFrom]
      simp [checkValueStyle, hstyle, hvalue, hwords]
    | some value =>
      have hvalueOf : valueOf a = value := by rw [valueOf, hvalue, Option.getD_some]
      by_cases hkey : (lowerName a == "id" || lowerName a == "class") = true
      · simp [checkValueStyle, hstyle, hvalue, wordsOf, hkey, hvalueOf, List.filter_map,
          Function.comp_def, styleIssue, offsetIn, RuleName.code, RuleName.key]
      · simp [checkValueStyle, hstyle, hvalue, wordsOf, hkey]
  | _ => exact absurd hr (by decide)

/-- What a rule on styles finds in tags are the texts that are not of the style. -/
theorem checkTags_only_style (hr : r.kind = .style) (h : styleOf r o = some style)
    (ids : List Bytes) (ts : List Tag) :
    checkTags s (o.only r) ids ts =
      ((styledAmong r (occurrences ts)).filter fun x => !style.accepts x.2).map
        (styleIssue r s style) := by
  have hne : r ≠ .attrNewLine := by
    rintro rfl
    exact absurd hr (by decide)
  have hissues := checkTags_only_eq_flatMap (s := s) (o := o) hne (g := fun p =>
    (((wordsOf r p.2).map fun w => (p, w)).filter fun x => !style.accepts x.2).map
      (styleIssue r s style))
    fun seen t a => checkAttribute_only_style hr h seen t a
  rw [hissues, styledAmong, List.filter_flatMap, List.map_flatMap]

/-! ## Sorting -/

/-- What an issue on a style is about: its place, the attribute and the value. -/
def finding (i : Issue) : Int × Int × String × String :=
  (i.line, i.column, i.data.attr, i.data.value)

/-- One text does not stand behind another. -/
def textNotAfter (r : RuleName) (s : Source) (x y : Styled) : Bool :=
  notAfter (styleIssue r s .lowercase x) (styleIssue r s .lowercase y)

/-- Texts are put in order by the places of their issues. -/
theorem textNotAfter_trans (x y z : Styled) (hxy : textNotAfter r s x y = true)
    (hyz : textNotAfter r s y z = true) : textNotAfter r s x z = true :=
  notAfter_trans _ _ _ hxy hyz

theorem textNotAfter_total (x y : Styled) : (textNotAfter r s x y || textNotAfter r s y x) = true :=
  notAfter_total _ _

/-- The issues of a rule on styles are those on the texts that are not of the style, in the order of
    the texts. -/
theorem ofRule_check_style (hr : r.kind = .style) (h : styleOf r o = some style) (text : Bytes) :
    ofRule r (T.check o text) =
      (((styledAmong r (occurrences (T.outline (.ofText text)).tags)).filter
        fun x => !style.accepts x.2).mergeSort (textNotAfter r (.ofText text))).map
        (styleIssue r (.ofText text) style) := by
  have hne : r ≠ .indentWidth := by
    rintro rfl
    exact absurd hr (by decide)
  -- the place of an issue does not depend on the style
  have hplace : ∀ x y, textNotAfter r (.ofText text) x y =
      notAfter (styleIssue r (.ofText text) style x) (styleIssue r (.ofText text) style y) :=
    fun _ _ => rfl
  rw [ofRule_check hne, checkTags_only_style hr h, List.map_mergeSort fun x _ y _ => hplace x y]

/-- **Under the strictest style a rule finds all that it finds under another**, in the same
    order. -/
theorem findings_sublist (hr : r.kind = .style) (h : styleOf r o = some .lowercase)
    (h' : styleOf r o' = some style) (text : Bytes) :
    ((ofRule r (T.check o' text)).map finding).Sublist
      ((ofRule r (T.check o text)).map finding) := by
  have hfinding : finding ∘ styleIssue r (.ofText text) style =
      finding ∘ styleIssue r (.ofText text) .lowercase := rfl
  rw [ofRule_check_style hr h', ofRule_check_style hr h, List.map_map, List.map_map, hfinding]
  refine (sublist_mergeSort_filter textNotAfter_trans textNotAfter_total ?_ _).map _
  -- a text that is not of the style is not of the strictest either
  intro x hx
  rw [Bool.not_eq_true'] at hx ⊢
  refine Bool.eq_false_iff.mpr fun hlower => ?_
  rw [NameStyle.accepts_of_lowercase hlower style] at hx
  exact absurd hx (by decide)

/-! ## Documents -/

/-- A rule goes by its own option only. -/
theorem ofRule_check_congr (h : o'.only r = o.only r) (text : Bytes) :
    ofRule r (T.check o' text) = ofRule r (T.check o text) := by
  have hselects : ofRule r (T.check o text) = T.check (o.only r) text := selects_check T text o r
  have hselects' : ofRule r (T.check o' text) = T.check (o'.only r) text :=
    selects_check T text o' r
  rw [hselects, hselects', h]

/-- A rule on styles goes by the style only. -/
theorem only_of_styleOf (hr : r.kind = .style) (h : styleOf r o' = styleOf r o) :
    o'.only r = o.only r := by
  cases r with
  | attrNameStyle =>
    have hstyle : o'.attrNameStyle = o.attrNameStyle := h
    simp [Options.only, hstyle]
  | idClassStyle =>
    have hstyle : o'.idClassStyle = o.idClassStyle := h
    simp [Options.only, hstyle]
  | _ => exact absurd hr (by decide)

/-- A rule on styles finds no more after such a change. -/
theorem findings_of_styleChange (hr : r.kind = .style)
    (h : Options.StyleChange (styleOf r o) (styleOf r o')) (text : Bytes) :
    ((ofRule r (T.check o' text)).map finding).Sublist
      ((ofRule r (T.check o text)).map finding) := by
  rcases h with hsame | ⟨hlower, hsome⟩
  · rw [ofRule_check_congr (only_of_styleOf hr hsame)]
  · obtain ⟨style, hstyle⟩ := Option.isSome_iff_exists.mp hsome
    exact findings_sublist hr hlower hstyle text

/-- A change of configurations is one of styles. -/
theorem styleChange_of_restyled (h : Options.Restyled o o') (r : RuleName) :
    Options.StyleChange (styleOf r o) (styleOf r o') := by
  cases r with
  | attrNameStyle => exact h.attrNameStyle
  | idClassStyle => exact h.idClassStyle
  | _ => exact .inl rfl

/-- The other rules go by the same options as before. -/
theorem only_of_restyled (h : Options.Restyled o o') (hr : r.kind ≠ .style) :
    o'.only r = o.only r := by
  cases r with
  | attrNameStyle => exact absurd rfl hr
  | idClassStyle => exact absurd rfl hr
  | _ => simp [Options.only, h.attrBans, h.attrNoDup, h.idNoDup, h.indentWidth, h.attrNewLine]

/-- No rule finds more under the second of two such configurations. -/
theorem findings_of_restyled (h : Options.Restyled o o') (text : Bytes) (r : RuleName) :
    ((ofRule r (T.check o' text)).map finding).Sublist
      ((ofRule r (T.check o text)).map finding) := by
  by_cases hr : r.kind = .style
  · exact findings_of_styleChange hr (styleChange_of_restyled h r) text
  · rw [ofRule_check_congr (only_of_restyled h hr)]

/-- **The strictest style finds the most.** The names of a style are the words of its language. A
    name is of the strictest style just when it is of any two of the others, and then it is of all.
    So take any two configurations of which the second has other styles in the place of the
    strictest one, and any text: linting fails with both, and for the same reason, or succeeds with
    both, and then what a rule finds with the second (place, attribute and value) is a selection
    from what it finds with the first, in the same order. -/
theorem strictest_style_finds_most :
    (∀ (style : NameStyle) name, style.accepts name = true ↔ name ∈ style.language) ∧
    (∀ name, NameStyle.lowercase.accepts name = true ↔
      ∀ style : NameStyle, style ≠ .lowercase → style.accepts name = true) ∧
    (∀ s t : NameStyle, s ≠ .lowercase → t ≠ .lowercase → s ≠ t → ∀ name,
      NameStyle.lowercase.accepts name = true ↔ s.accepts name = true ∧ t.accepts name = true) ∧
    ∀ (T : Tokenizer) config other text canceled, Options.Restyles config other →
      Alike (fun issues issues' => ∀ r,
        ((ofRule r issues').map finding).Sublist ((ofRule r issues).map finding))
        (T.lint config text canceled) (T.lint other text canceled) := by
  refine ⟨NameStyle.accepts_iff_mem_language, fun name => ?_,
    fun s t hs ht hne => NameStyle.lowercase_iff hs ht hne, ?_⟩
  · refine ⟨fun h style _ => NameStyle.accepts_of_lowercase h style, fun h => ?_⟩
    have hdash := h .dash (by decide)
    have hcamel := h .camel (by decide)
    exact (NameStyle.lowercase_iff (by decide) (by decide) (by decide) name).mpr ⟨hdash, hcamel⟩
  · intro T config other text canceled h
    have halike := h.ofConfig_alike
    unfold Tokenizer.lint lintWith
    generalize Options.ofConfig config = x at halike
    generalize Options.ofConfig other = y at halike
    cases halike with
    | error e => exact .error _
    | ok hrestyled =>
      cases canceled with
      | true => exact .error _
      | false => exact .ok (findings_of_restyled hrestyled text)

/-- The strictest style for names and for values. -/
def strict : Config :=
  [(RuleName.attrNameStyle.key, .text "lowercase"), (RuleName.idClassStyle.key, .text "lowercase")]

/-- Names with dashes, and values with capital letters. -/
def relaxed : Config :=
  [(RuleName.idClassStyle.key, .text "camel"), (RuleName.attrNameStyle.key, .text "dash")]

/-- One value twice that both styles refuse, and a name and a value that only the strictest one
    refuses. -/
def twoStyles : Bytes := Bytes.ofString "<p data-x class=\"a-b aB a-b\">"

/-- The first word is refused by both styles, and the name by the strictest only. -/
theorem strictest_style_finds_most_twoStyles :
    Options.Restyles strict relaxed ∧
    ∃ issues issues', lint strict twoStyles false = .ok issues ∧
      lint relaxed twoStyles false = .ok issues' ∧
      (∀ r, ((ofRule r issues').map finding).Sublist ((ofRule r issues).map finding)) ∧
      (∃ i ∈ issues', i.code = "E011" ∧ finding i = (0, 10, "class", "a-b")) ∧
      ∃ i ∈ issues, i.code = "E002" ∧ finding i = (0, 3, "data-x", "") := by
  have hrestyles : Options.Restyles strict relaxed := by
    intro r
    cases r with
    | attrNameStyle => exact .inr ⟨rfl, rfl, .dash, rfl⟩
    | idClassStyle => exact .inr ⟨rfl, rfl, .camel, rfl⟩
    | _ => exact .inl rfl
  have hstrict : Options.ofConfig strict = .ok { unconfigured with
      attrNameStyle := some .lowercase, idClassStyle := some .lowercase } := rfl
  have hrelaxed : Options.ofConfig relaxed =
      .ok { unconfigured with idClassStyle := some .camel } := rfl
  have halike := strictest_style_finds_most.2.2.2 .html strict relaxed twoStyles false hrestyles
  rw [lint_eq_check (T := .html) hstrict, lint_eq_check (T := .html) hrelaxed] at halike
  refine ⟨hrestyles, _, _, lint_eq_check (T := .html) hstrict _,
    lint_eq_check (T := .html) hrelaxed _, ?_, ?_, ?_⟩
  · cases halike with
    | ok h => exact h
  · exact exists_check_of_tags (by decide +kernel)
  · exact exists_check_of_tags (by decide +kernel)

end Rule
end MarkupLint
