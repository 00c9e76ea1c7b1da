/-
  What the rules report. Each of the seven rules has an option and a code of its own. Rules on
  attributes report at the offset of an attribute, the rule on attributes per line at the offset of
  a tag (`Rule.Reports`), and the rule on indentation behind the spaces in front of a line
  (`mem_checkLines_iff`).
-/
import MarkupLint.Proofs.Tokenizer

namespace MarkupLint

/-- The seven rules. -/
inductive RuleName where
  | attrBans
  | attrNameStyle
  | attrNoDup
  | idClassStyle
  | idNoDup
  | indentWidth
  | attrNewLine
  deriving DecidableEq, Repr

namespace RuleName

def all : List RuleName :=
  [.attrBans, .attrNameStyle, .attrNoDup, .idClassStyle, .idNoDup, .indentWidth, .attrNewLine]

/-- The option of the rule in a configuration. -/
def key : RuleName → String
  | .attrBans => "attr-bans"
  | .attrNameStyle => "attr-name-style"
  | .attrNoDup => "attr-no-dup"
  | .idClassStyle => "id-class-style"
  | .idNoDup => "id-no-dup"
  | .indentWidth => "indent-width"
  | .attrNewLine => "attr-new-line"

/-- The code of the issues of the rule. -/
def code : RuleName → String
  | .attrBans => "E001"
  | .attrNameStyle => "E002"
  | .attrNoDup => "E003"
  | .idClassStyle => "E011"
  | .idNoDup => "E012"
  | .indentWidth => "E036"
  | .attrNewLine => "E037"

/-- Different rules have different codes. -/
theorem code_inj {q r : RuleName} (h : q.code = r.code) : q = r := by
  revert h
  cases q <;> cases r <;> decide

/-- Different rules have different options. -/
theorem key_inj {q r : RuleName} (h : q.key = r.key) : q = r := by
  revert h
  cases q <;> cases r <;> decide

theorem mem_all (r : RuleName) : r ∈ all := by
  cases r <;> decide

end RuleName

namespace Rule

open Markup

variable {s : Source} {o : Options} {offset : Nat} {a : Attribute} {t : Tag} {i : Issue}

/-! ## Reports on tags and attributes -/

/-- The issue is one that the rule reports at an offset. -/
def Reports (r : RuleName) (s : Source) (offset : Nat) (i : Issue) : Prop :=
  ∃ data, i = issueAt s offset r.code r.key data

theorem Reports.code_eq {r : RuleName} (h : Reports r s offset i) : i.code = r.code := by
  obtain ⟨data, rfl⟩ := h
  rfl

/-- What is reported under a condition is the issue in question. -/
theorem reports_of_mem_ite {r : RuleName} {p : Prop} [Decidable p] {data : IssueData}
    (h : i ∈ if p then [issueAt s offset r.code r.key data] else []) : Reports r s offset i := by
  split at h
  · exact ⟨data, List.mem_singleton.mp h⟩
  · exact absurd h List.not_mem_nil

/-- What the checks of an attribute report, one by one. -/
theorem reports_of_mem_checkBan (h : i ∈ checkBan s o offset a) : Reports .attrBans s offset i :=
  reports_of_mem_ite h

theorem reports_of_mem_checkNameStyle (h : i ∈ checkNameStyle s o offset a) :
    Reports .attrNameStyle s offset i := by
  unfold checkNameStyle at h
  split at h
  · exact absurd h List.not_mem_nil
  · split at h
    · exact absurd h List.not_mem_nil
    · exact ⟨_, List.mem_singleton.mp h⟩

theorem reports_of_mem_checkDuplicate {seen : List String}
    (h : i ∈ checkDuplicate s o seen offset a) : Reports .attrNoDup s offset i :=
  reports_of_mem_ite h

theorem reports_of_mem_checkValueStyle (h : i ∈ checkValueStyle s o offset a) :
    Reports .idClassStyle s offset i := by
  unfold checkValueStyle at h
  split at h
  · split at h
    · obtain ⟨w, -, rfl⟩ := List.mem_map.mp h
      exact ⟨_, rfl⟩
    · exact absurd h List.not_mem_nil
  · exact absurd h List.not_mem_nil

theorem reports_of_mem_checkId {ids : List Bytes} (h : i ∈ checkId s o ids offset a) :
    Reports .idNoDup s offset i :=
  reports_of_mem_ite h

/-- The rule on attributes per line reports at the tag. -/
theorem reports_of_mem_checkNewLine (h : i ∈ checkNewLine s o t) :
    Reports .attrNewLine s t.offset i :=
  reports_of_mem_ite h

/-- Rules on attributes report at the attribute. -/
theorem reports_of_mem_checkAttribute {seen : Seen} (h : i ∈ checkAttribute s o seen offset a) :
    ∃ r, r ≠ .indentWidth ∧ Reports r s offset i := by
  simp only [checkAttribute, List.mem_append, or_assoc] at h
  rcases h with h | h | h | h | h
  · exact ⟨.attrBans, by decide, reports_of_mem_checkBan h⟩
  · exact ⟨.attrNameStyle, by decide, reports_of_mem_checkNameStyle h⟩
  · exact ⟨.attrNoDup, by decide, reports_of_mem_checkDuplicate h⟩
  · exact ⟨.idClassStyle, by decide, reports_of_mem_checkValueStyle h⟩
  · exact ⟨.idNoDup, by decide, reports_of_mem_checkId h⟩

/-- Each issue is at the attribute that it was found at. -/
theorem reports_of_mem_checkAttributes {seen : Seen} {as : List Attribute}
    (h : i ∈ (checkAttributes s o t seen as).1) :
    ∃ a ∈ as, ∃ r, r ≠ .indentWidth ∧ Reports r s (t.offsetOf a) i := by
  induction as generalizing seen with
  | nil => exact absurd h List.not_mem_nil
  | cons a as ih =>
    rcases List.mem_append.mp h with hfirst | hrest
    · exact ⟨a, List.mem_cons_self, reports_of_mem_checkAttribute hfirst⟩
    · obtain ⟨b, hb, hreports⟩ := ih hrest
      exact ⟨b, List.mem_cons_of_mem a hb, hreports⟩

/-- Rules on tags report at a tag or at one of its attributes. -/
theorem reports_of_mem_checkTags {ids : List Bytes} {ts : List Tag} (h : i ∈ checkTags s o ids ts) :
    ∃ t ∈ ts, ∃ r, r ≠ .indentWidth ∧
      (Reports r s t.offset i ∨ ∃ a ∈ t.attributes, Reports r s (t.offsetOf a) i) := by
  induction ts generalizing ids with
  | nil => exact absurd h List.not_mem_nil
  | cons t ts ih =>
    simp only [checkTags, List.mem_append, or_assoc] at h
    rcases h with h | h | h
    · obtain ⟨a, ha, r, hne, hr⟩ := reports_of_mem_checkAttributes h
      exact ⟨t, List.mem_cons_self, r, hne, .inr ⟨a, ha, hr⟩⟩
    · exact ⟨t, List.mem_cons_self, .attrNewLine, by decide, .inl (reports_of_mem_checkNewLine h)⟩
    · obtain ⟨u, hu, hreports⟩ := ih h
      exact ⟨u, List.mem_cons_of_mem t hu, hreports⟩

/-! ## Reports on lines -/

/-- A line is reported when it is neither verbatim nor blank and its spaces are not of the width. -/
theorem mem_checkIndent_iff {verbatim : List Nat} {number : Nat} {line : Bytes} :
    i ∈ checkIndent o verbatim number line ↔
      (number ∉ verbatim ∧ Blank.isBlankLine line = false ∧ indentOf line % o.indentWidth ≠ 0) ∧
      i = { code := RuleName.indentWidth.code, rule := RuleName.indentWidth.key, line := number,
            column := indentOf line, data := { width := o.indentWidth } } := by
  unfold checkIndent
  simp only
  -- the three conditions, and the one issue
  split
  · rename_i hcond
    constructor
    · exact fun h => absurd h List.not_mem_nil
    · rintro ⟨⟨hverbatim, hblank, hspaces⟩, -⟩
      simp [hverbatim, hblank, hspaces] at hcond
  · rename_i hcond
    have hparts : number ∉ verbatim ∧ Blank.isBlankLine line = false ∧
        indentOf line % o.indentWidth ≠ 0 := by
      simpa [not_or, and_assoc] using hcond
    exact ⟨fun h => ⟨hparts, List.mem_singleton.mp h⟩, fun h => List.mem_singleton.mpr h.2⟩

/-- Lines are checked one by one, each with its number. -/
theorem mem_checkLines_iff {verbatim : List Nat} {number : Nat} {ls : List Bytes} :
    i ∈ checkLines o verbatim number ls ↔
      ∃ k line, ls[k]? = some line ∧ i ∈ checkIndent o verbatim (number + k) line := by
  induction ls generalizing number with
  | nil => simp [checkLines]
  | cons l ls ih =>
    rw [checkLines, List.mem_append, ih]
    constructor
    · rintro (hfirst | ⟨k, line, hline, hi⟩)
      · exact ⟨0, l, rfl, hfirst⟩
      · refine ⟨k + 1, line, hline, ?_⟩
        rwa [Nat.add_right_comm, Nat.add_assoc] at hi
    · -- the line is the first one, or one of the rest with a number less
      rintro ⟨k, line, hline, hi⟩
      cases k with
      | zero =>
        obtain rfl : l = line := Option.some.inj hline
        exact .inl hi
      | succ k =>
        refine .inr ⟨k, line, hline, ?_⟩
        rwa [Nat.add_right_comm, Nat.add_assoc]

/-! ## Documents -/

/-- The options when a configuration says nothing. -/
def unconfigured : Options :=
  { attrBans := some Options.defaultBans, attrNameStyle := some .dash, attrNoDup := true,
    idClassStyle := none, idNoDup := true, indentWidth := 4, attrNewLine := 0 }

/-- Without a configuration the options are the defaults. -/
theorem ofConfig_nil : Options.ofConfig [] = .ok unconfigured := rfl

/-- Linting fails at nothing but the options, unless it was cancelled. -/
theorem lint_eq_check {T : Tokenizer} {c : Config} (h : Options.ofConfig c = .ok o) (text : Bytes) :
    T.lint c text false = .ok (T.check o text) := by
  simp [lintWith, h]

/-- The issues of a document are those of its lines and those of its tags. -/
theorem mem_check_iff {T : Tokenizer} {text : Bytes} :
    i ∈ T.check o text ↔
      (o.indentWidth ≠ 0 ∧
        i ∈ checkLines o (T.outline (.ofText text)).verbatim 0 (Bytes.splitAt Bytes.newline text)) ∨
      i ∈ checkTags (.ofText text) o [] (T.outline (.ofText text)).tags := by
  have hlines : (Source.ofText text).lines.toList = Bytes.splitAt Bytes.newline text := rfl
  simp only [checkWith, List.mem_mergeSort, List.mem_append, hlines]
  by_cases h : o.indentWidth = 0
  · simp [h]
  · simp [h]

/-- An issue on a tag is one of the document. -/
theorem exists_check_of_tags {T : Tokenizer} {text : Bytes} {p : Issue → Prop}
    (h : ∃ i ∈ checkTags (.ofText text) o [] (T.outline (.ofText text)).tags, p i) :
    ∃ i ∈ T.check o text, p i := by
  obtain ⟨i, hi, hp⟩ := h
  exact ⟨i, mem_check_iff.mpr (.inr hi), hp⟩

end Rule
end MarkupLint
