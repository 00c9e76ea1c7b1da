/-
  The rules do not see each other: of the issues of a document those of one rule are the issues that
  there are when all other rules are turned off. And issues come in the order of their places.

  A check *selects* (`Selects`) when picking out the issues of a rule is the same as turning the
  other rules off. Each of the seven checks does, being governed by one option (`GovernedBy`).
  Checks put one after the other do, since what they remember of tags and ids does not depend on the
  options. Sorting keeps it so, since it is stable (`filter_mergeSort`).
-/
import MarkupLint.Proofs.Lists
import MarkupLint.Proofs.RuleReports
import MarkupLint.Proofs.Table

namespace MarkupLint

/-! ## Options -/

/-- The configuration with the options of all rules but one set to `false`. -/
def Config.only (r : RuleName) (c : Config) : Config :=
  (RuleName.all.filter (· ≠ r)).foldl (fun c q => c.put q.key (.bool false)) c

/-- The options with all rules but one turned off. -/
def Options.only (r : RuleName) (o : Options) : Options where
  attrBans := if r = .attrBans then o.attrBans else none
  attrNameStyle := if r = .attrNameStyle then o.attrNameStyle else none
  attrNoDup := r = .attrNoDup && o.attrNoDup
  idClassStyle := if r = .idClassStyle then o.idClassStyle else none
  idNoDup := r = .idNoDup && o.idNoDup
  indentWidth := if r = .indentWidth then o.indentWidth else 0
  attrNewLine := if r = .attrNewLine then o.attrNewLine else 0

namespace Options

/-- Setting options one after the other sets these and no others. -/
theorem get?_foldl_put (qs : List RuleName) (c : Config) (q : RuleName) :
    (qs.foldl (fun c q => c.put q.key (.bool false)) c).get? q.key =
      if q ∈ qs then some (.bool false) else c.get? q.key := by
  induction qs generalizing c with
  | nil => simp
  | cons p qs ih =>
    rw [List.foldl_cons, ih, Table.get?_put]
    by_cases hp : q = p
    · simp [hp]
    · have hkey : q.key ≠ p.key := fun h => hp (RuleName.key_inj h)
      simp [hp, hkey]

/-- All options are `false` but that of the rule. -/
theorem get?_only (r q : RuleName) (c : Config) :
    (Config.only r c).get? q.key = if q = r then c.get? q.key else some (.bool false) := by
  rw [Config.only, get?_foldl_put]
  by_cases h : q = r
  · simp [h]
  · simp [h, RuleName.mem_all]

/-- The option of the rule stays as it is, the others read as `false`. -/
theorem option_only (r q : RuleName) (c : Config) (default off : α) (kind : ConfigValue → Option α)
    (hoff : kind (.bool false) = some off) {a : α} (h : option c q.key default kind = .ok a) :
    option (Config.only r c) q.key default kind = .ok (if r = q then a else off) := by
  unfold option at h ⊢
  rw [get?_only]
  by_cases hq : q = r
  · rw [if_pos hq, if_pos hq.symm]
    exact h
  · rw [if_neg hq, if_neg (Ne.symm hq)]
    simp only [hoff]

/-- A configuration is in order when each of its seven options is. -/
theorem ofConfig_eq_ok {c : Config} {o : Options} :
    ofConfig c = .ok o ↔
      option c RuleName.attrBans.key (some defaultBans) (names? defaultBans) = .ok o.attrBans ∧
      option c RuleName.attrNameStyle.key (some .dash) style? = .ok o.attrNameStyle ∧
      option c RuleName.attrNoDup.key true flag? = .ok o.attrNoDup ∧
      option c RuleName.idClassStyle.key none style? = .ok o.idClassStyle ∧
      option c RuleName.idNoDup.key true flag? = .ok o.idNoDup ∧
      option c RuleName.indentWidth.key 4 (number? 4) = .ok o.indentWidth ∧
      option c RuleName.attrNewLine.key 0 (number? 0) = .ok o.attrNewLine := by
  -- options are read one after the other, and each of them has to be in order
  unfold ofConfig
  simp only [bind_eq_ok_iff]
  constructor
  · rintro ⟨b, hb, n, hn, d, hd, v, hv, i, hi, w, hw, l, hl, h⟩
    obtain rfl := Except.ok.inj h
    exact ⟨hb, hn, hd, hv, hi, hw, hl⟩
  · rintro ⟨hb, hn, hd, hv, hi, hw, hl⟩
    exact ⟨_, hb, _, hn, _, hd, _, hv, _, hi, _, hw, _, hl, rfl⟩

/-- Setting the options of the other rules to `false` turns the other rules off and nothing else. -/
theorem ofConfig_only {c : Config} {o : Options} (h : ofConfig c = .ok o) (r : RuleName) :
    ofConfig (Config.only r c) = .ok (o.only r) := by
  obtain ⟨hb, hn, hd, hv, hi, hw, hl⟩ := ofConfig_eq_ok.mp h
  have hflag : ∀ {q : RuleName} {b : Bool}, (if r = q then b else false) = (r = q && b) := by
    intro q b
    by_cases hq : r = q <;> simp [hq]
  refine ofConfig_eq_ok.mpr ⟨option_only r _ c _ none _ rfl hb, option_only r _ c _ none _ rfl hn,
    ?_, option_only r _ c _ none _ rfl hv, ?_, option_only r _ c _ 0 _ rfl hw,
    option_only r _ c _ 0 _ rfl hl⟩
  · rw [option_only r _ c _ false _ rfl hd, hflag]
    rfl
  · rw [option_only r _ c _ false _ rfl hi, hflag]
    rfl

end Options

namespace Rule

open Markup

variable {s : Source} {o : Options} {q r : RuleName} {f g : Options → List Issue}

/-! ## Checks that select -/

/-- The issues of one rule. -/
def ofRule (r : RuleName) (issues : List Issue) : List Issue :=
  issues.filter fun i => i.code = r.code

/-- Picking out the issues of a rule is the same as turning the other rules off. -/
def Selects (f : Options → List Issue) : Prop :=
  ∀ (o : Options) (r : RuleName), ofRule r (f o) = f (o.only r)

/-- The check is that of one rule: its issues have the code of the rule, it goes by the option of
    the rule and finds nothing when the rule is off. -/
structure GovernedBy (q : RuleName) (f : Options → List Issue) : Prop where
  code_eq : ∀ (o : Options), ∀ i ∈ f o, i.code = q.code
  own : ∀ (o : Options), f (o.only q) = f o
  other : ∀ (o : Options) (r : RuleName), r ≠ q → f (o.only r) = []

/-- A check that is governed by one rule selects. -/
theorem GovernedBy.selects (h : GovernedBy q f) : Selects f := by
  intro o r
  -- the rule itself keeps all issues, and any other keeps none, since codes differ
  by_cases hr : r = q
  · subst hr
    rw [h.own, ofRule, List.filter_eq_self]
    exact fun i hi => decide_eq_true (h.code_eq o i hi)
  · rw [h.other o r hr, ofRule, List.filter_eq_nil_iff]
    intro i hi hcode
    exact hr (RuleName.code_inj ((of_decide_eq_true hcode).symm.trans (h.code_eq o i hi)))

theorem selects_nil : Selects fun _ => [] := fun _ _ => rfl

/-- Checks that select do so one behind the other. -/
theorem Selects.append (hf : Selects f) (hg : Selects g) : Selects fun o => f o ++ g o := by
  intro o r
  show ofRule r (f o ++ g o) = f (o.only r) ++ g (o.only r)
  rw [← hf o r, ← hg o r]
  exact List.filter_append _ _

/-! ## The seven checks -/

section Checks

variable (s : Source) (offset : Nat) (a : Attribute)

/-- The checks of an attribute are governed by one rule each. -/
theorem governedBy_checkBan : GovernedBy .attrBans fun o => checkBan s o offset a := by
  refine ⟨fun o i hi => (reports_of_mem_checkBan hi).code_eq, fun o => rfl, fun o r hr => ?_⟩
  simp [checkBan, Options.only, hr]

theorem governedBy_checkNameStyle :
    GovernedBy .attrNameStyle fun o => checkNameStyle s o offset a := by
  refine ⟨fun o i hi => (reports_of_mem_checkNameStyle hi).code_eq, fun o => rfl, fun o r hr => ?_⟩
  simp [checkNameStyle, Options.only, hr]

theorem governedBy_checkDuplicate (seen : List String) :
    GovernedBy .attrNoDup fun o => checkDuplicate s o seen offset a := by
  refine ⟨fun o i hi => (reports_of_mem_checkDuplicate hi).code_eq, fun o => ?_, fun o r hr => ?_⟩
  · simp [checkDuplicate, Options.only]
  · simp [checkDuplicate, Options.only, hr]

theorem governedBy_checkValueStyle :
    GovernedBy .idClassStyle fun o => checkValueStyle s o offset a := by
  refine ⟨fun o i hi => (reports_of_mem_checkValueStyle hi).code_eq, fun o => rfl, fun o r hr => ?_⟩
  simp [checkValueStyle, Options.only, hr]

theorem governedBy_checkId (ids : List Bytes) :
    GovernedBy .idNoDup fun o => checkId s o ids offset a := by
  refine ⟨fun o i hi => (reports_of_mem_checkId hi).code_eq, fun o => ?_, fun o r hr => ?_⟩
  · simp [checkId, Options.only]
  · simp [checkId, Options.only, hr]

theorem governedBy_checkNewLine (t : Tag) :
    GovernedBy .attrNewLine fun o => checkNewLine s o t := by
  refine ⟨fun o i hi => (reports_of_mem_checkNewLine hi).code_eq, fun o => rfl, fun o r hr => ?_⟩
  simp [checkNewLine, Options.only, hr]

end Checks

/-- Only the width of the indentation matters for the check of the lines. -/
theorem checkLines_congr {o o' : Options} (h : o'.indentWidth = o.indentWidth)
    (verbatim : List Nat) (number : Nat) (ls : List Bytes) :
    checkLines o' verbatim number ls = checkLines o verbatim number ls := by
  induction ls generalizing number with
  | nil => rfl
  | cons l ls ih => simp only [checkLines, checkIndent, h, ih]

theorem governedBy_lines (verbatim : List Nat) (ls : List Bytes) :
    GovernedBy .indentWidth fun o =>
      if o.indentWidth = 0 then [] else checkLines o verbatim 0 ls := by
  have hkept : ∀ o : Options, (o.only .indentWidth).indentWidth = o.indentWidth := fun o => rfl
  refine ⟨fun o i hi => ?_, fun o => ?_, fun o r hr => ?_⟩
  · split at hi
    · exact absurd hi List.not_mem_nil
    · obtain ⟨k, line, -, hi⟩ := mem_checkLines_iff.mp hi
      obtain ⟨-, rfl⟩ := mem_checkIndent_iff.mp hi
      rfl
  · simp only [hkept, checkLines_congr (hkept o)]
  · simp [Options.only, hr]

/-! ## One check after the other -/

/-- All checks of an attribute together select. -/
theorem selects_checkAttribute (s : Source) (seen : Seen) (offset : Nat) (a : Attribute) :
    Selects fun o => checkAttribute s o seen offset a :=
  ((((governedBy_checkBan s offset a).selects.append
    (governedBy_checkNameStyle s offset a).selects).append
    (governedBy_checkDuplicate s offset a seen.names).selects).append
    (governedBy_checkValueStyle s offset a).selects).append
      (governedBy_checkId s offset a seen.ids).selects

/-- What is remembered after the attributes of a tag does not depend on the options. -/
theorem checkAttributes_seen (s : Source) (o : Options) (t : Tag) (seen : Seen)
    (as : List Attribute) :
    (checkAttributes s o t seen as).2 = as.foldl Seen.after seen := by
  induction as generalizing seen with
  | nil => rfl
  | cons a as ih => exact ih (seen.after a)

/-- The checks of all attributes of a tag select, since the same names and ids are remembered. -/
theorem selects_checkAttributes (s : Source) (t : Tag) (seen : Seen) (as : List Attribute) :
    Selects fun o => (checkAttributes s o t seen as).1 := by
  induction as generalizing seen with
  | nil => exact selects_nil
  | cons a as ih =>
    exact (selects_checkAttribute s seen (t.offsetOf a) a).append (ih (seen.after a))

/-- The checks of all tags select. -/
theorem selects_checkTags (s : Source) (ids : List Bytes) (ts : List Tag) :
    Selects fun o => checkTags s o ids ts := by
  induction ts generalizing ids with
  | nil => exact selects_nil
  | cons t ts ih =>
    have hrest := ih (t.attributes.foldl Seen.after ⟨[], ids⟩).ids
    -- the ids that are handed on to the next tag do not depend on the options
    have hsplit : ∀ o, checkTags s o ids (t :: ts) =
        (checkAttributes s o t ⟨[], ids⟩ t.attributes).1 ++ checkNewLine s o t ++
          checkTags s o (t.attributes.foldl Seen.after ⟨[], ids⟩).ids ts := by
      intro o
      rw [← checkAttributes_seen s o t]
      rfl
    simp only [hsplit]
    exact ((selects_checkAttributes s t ⟨[], ids⟩ t.attributes).append
      (governedBy_checkNewLine s t).selects).append hrest

/-! ## Sorting -/

/-- Issues are compared by their lines, and on one line by their columns. -/
theorem notAfter_iff {a b : Issue} :
    notAfter a b = true ↔ a.line < b.line ∨ (a.line = b.line ∧ a.column ≤ b.column) := by
  unfold notAfter
  by_cases h : a.line = b.line
  · simp [h]
  · simp [h]

theorem notAfter_trans (a b c : Issue) (hab : notAfter a b = true) (hbc : notAfter b c = true) :
    notAfter a c = true := by
  rw [notAfter_iff] at hab hbc ⊢
  omega

theorem notAfter_total (a b : Issue) : (notAfter a b || notAfter b a) = true := by
  rw [Bool.or_eq_true, notAfter_iff, notAfter_iff]
  omega

/-- **Linting selects**, with any tokenizer. -/
theorem selects_check (T : Tokenizer) (text : Bytes) : Selects fun o => T.check o text := by
  have hall := (governedBy_lines (T.outline (.ofText text)).verbatim
    (Source.ofText text).lines.toList).selects.append
    (selects_checkTags (.ofText text) [] (T.outline (.ofText text)).tags)
  intro o r
  show ((_ : List Issue).mergeSort notAfter).filter _ = (_ : List Issue).mergeSort notAfter
  rw [filter_mergeSort notAfter_trans notAfter_total]
  exact congrArg (List.mergeSort · notAfter) (hall o r)

/-! ## Documents -/

/-- **The rules are independent, and issues come in order.** Take any document and any configuration
    that is in order. The issues with the code of a rule, in their order, are what linting gives
    when the options of the other six rules are set to `false`; and no issue stands behind a later
    one of the list. -/
theorem rules_independent (T : Tokenizer) (c : Config) (o : Options) (text : Bytes)
    (h : Options.ofConfig c = .ok o) :
    ∃ issues, T.lint c text false = .ok issues ∧
      (∀ r, T.lint (Config.only r c) text false = .ok (issues.filter fun i => i.code = r.code)) ∧
      issues.Pairwise fun a b => a.line < b.line ∨ (a.line = b.line ∧ a.column ≤ b.column) := by
  refine ⟨T.check o text, lint_eq_check h text, fun r => ?_, ?_⟩
  · have hselects : ofRule r (T.check o text) = T.check (o.only r) text := selects_check T text o r
    rw [lint_eq_check (Options.ofConfig_only h r), ← hselects]
    rfl
  · exact (List.pairwise_mergeSort notAfter_trans notAfter_total _).imp notAfter_iff.mp

/-- An attribute of which two rules have something to say. -/
def bannedTwice : Bytes := Bytes.ofString " <p style style>"

/-- Both issues are at the second attribute, and each is there without the other rule. -/
theorem rules_independent_bannedTwice :
    ∃ issues, lint [] bannedTwice false = .ok issues ∧
      (∃ i ∈ issues, i.code = "E001" ∧ i.column = 10) ∧
      (∃ i ∈ issues, i.code = "E003" ∧ i.column = 10) ∧
      (∀ r, lint (Config.only r []) bannedTwice false =
        .ok (issues.filter fun i => i.code = r.code)) ∧
      issues.Pairwise fun a b => a.line < b.line ∨ (a.line = b.line ∧ a.column ≤ b.column) := by
  obtain ⟨issues, hlint, hrules, hsorted⟩ :=
    rules_independent .html [] unconfigured bannedTwice ofConfig_nil
  obtain rfl :=
    Except.ok.inj ((lint_eq_check (T := .html) ofConfig_nil bannedTwice).symm.trans hlint)
  exact ⟨_, hlint, exists_check_of_tags (by decide +kernel),
    exists_check_of_tags (by decide +kernel), hrules, hsorted⟩

end Rule
end MarkupLint
