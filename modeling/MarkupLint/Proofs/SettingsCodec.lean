/-
  Settings on the wire.

  Settings are written without what is blank and read into the defaults, so a blank that is not the
  default comes back as the default. The only one is the empty range mode, and nobody can tell it
  from the default. Each field is read from its own members, the last of which counts, and a text
  that is refused changes nothing.
-/
import MarkupLint.Diagnosis
import MarkupLint.Proofs.RecordCodecs

namespace MarkupLint.Settings

open Codec Json

variable {ms : List (String × Json)} {s target : Settings}

/-- A place for settings after something was read into it, and why it was refused, if it was. -/
def taken (target : Settings) : Except ReadError Settings → Settings × Option ReadError
  | .ok s => (s, none)
  | .error e => (target, some e)

/-- Takes in settings from a text. -/
def takeIn (target : Settings) (text : Bytes) : Settings × Option ReadError :=
  taken target ((ofBytes? text).elim (.error .malformed) fun v => codec.read target [v])

/-- What the members of an object say, each field by itself. -/
structure GivenBy (ms : List (String × Json)) (s : Settings) : Prop where
  maxNumberOfProblems : LastGiven integer64? 1000 (notNull (valuesFor "maxNumberOfProblems" ms))
    s.maxNumberOfProblems
  rangeMode : LastGiven text? "character" (notNull (valuesFor "rangeMode" ms)) s.rangeMode
  lintOffset : LastGiven integer64? 0 (notNull (valuesFor "lintOffset" ms)) s.lintOffset
  reportErrors : LastGiven (orAbsent truth?) none (valuesFor "reportErrors" ms) s.reportErrors

instance (ms : List (String × Json)) (s : Settings) : Decidable (GivenBy ms s) :=
  decidable_of_iff
    (LastGiven integer64? 1000 (notNull (valuesFor "maxNumberOfProblems" ms))
      s.maxNumberOfProblems ∧
      LastGiven text? "character" (notNull (valuesFor "rangeMode" ms)) s.rangeMode ∧
      LastGiven integer64? 0 (notNull (valuesFor "lintOffset" ms)) s.lintOffset ∧
      LastGiven (orAbsent truth?) none (valuesFor "reportErrors" ms) s.reportErrors)
    ⟨fun h => ⟨h.1, h.2.1, h.2.2.1, h.2.2.2⟩, fun h => ⟨h.1, h.2, h.3, h.4⟩⟩

/-- The settings with a range mode. -/
def filled (s : Settings) : Settings :=
  if s.rangeMode = "" then { s with rangeMode := "character" } else s

/-- The range mode is filled in, and the other fields stay as they are. -/
theorem filled_rangeMode (s : Settings) :
    s.filled.rangeMode = if s.rangeMode = "" then "character" else s.rangeMode := by
  unfold filled
  split <;> rfl

theorem filled_maxNumberOfProblems (s : Settings) :
    s.filled.maxNumberOfProblems = s.maxNumberOfProblems := by
  unfold filled
  split <;> rfl

theorem filled_lintOffset (s : Settings) : s.filled.lintOffset = s.lintOffset := by
  unfold filled
  split <;> rfl

theorem filled_reportErrors (s : Settings) : s.filled.reportErrors = s.reportErrors := by
  unfold filled
  split <;> rfl

/-! ## Reading -/

theorem apart_fields : Apart fields := by decide

/-- Settings are read field by field. -/
theorem readMembers_fields : readMembers fields default ms = .ok s ↔
    ∃ a, integer.read 1000 (valuesFor "maxNumberOfProblems" ms) = .ok a ∧
    ∃ b, string.read "character" (valuesFor "rangeMode" ms) = .ok b ∧
    ∃ c, integer.read 0 (valuesFor "lintOffset" ms) = .ok c ∧
    ∃ d, (nullable flag).read none (valuesFor "reportErrors" ms) = .ok d ∧
      (Except.ok ⟨a, b, c, d⟩ : Except ReadError Settings) = .ok s := by
  rw [readMembers_eq apart_fields]
  -- one step for each field, since no field reads what is meant for another
  iterate 4
    refine (foldlM_take_cons (fun _ _ => rfl) (fun _ => rfl) (fun _ => rfl)).trans
      (exists_congr fun _ => ?_)
    refine and_congr_right fun _ => ?_
  rfl

/-- Settings are read if each field is what the members say of it. -/
theorem readMembers_eq_ok_iff : readMembers fields default ms = .ok s ↔ GivenBy ms s := by
  simp only [readMembers_fields, integer_eq_ok_iff, string_eq_ok_iff, nullable_eq_ok_iff flag_read]
  constructor
  · rintro ⟨a, ha, b, hb, c, hc, d, hd, hs⟩
    obtain rfl := Except.ok.inj hs
    exact ⟨ha, hb, hc, hd⟩
  · rintro ⟨ha, hb, hc, hd⟩
    exact ⟨_, ha, _, hb, _, hc, _, hd, rfl⟩

/-- What was there before does not matter to an object. -/
theorem read_obj (target : Settings) (ms : List (String × Json)) :
    codec.read target [.obj ms] = readMembers fields default ms := by
  show ((readMembers fields default ([] ++ ms)) >>= pure) = _
  rw [List.nil_append, bind_pure]

/-- Settings are taken in if they could be read. -/
theorem taken_eq_none_iff {x : Except ReadError Settings} :
    taken target x = (s, none) ↔ x = .ok s := by
  cases x with
  | error e => simp [taken]
  | ok s' => simp [taken]

/-- From the text of an object, what the object says is taken in. -/
theorem takeIn_obj_iff {text : Bytes} (h : ofBytes? text = some (.obj ms)) :
    takeIn target text = (s, none) ↔ GivenBy ms s := by
  rw [takeIn, h, Option.elim_some, taken_eq_none_iff, read_obj, readMembers_eq_ok_iff]

/-- What is refused leaves the place as it was. -/
theorem taken_refused {x : Except ReadError Settings} {e : ReadError}
    (h : (taken target x).2 = some e) : taken target x = (target, some e) := by
  cases x with
  | error e' =>
    obtain rfl := Option.some.inj h
    rfl
  | ok s' => exact absurd h (by simp [taken])

/-! ## Writing -/

/-- Each field is written under its own name only. -/
theorem valuesFor_written {i : Nat} (hi : i < fields.length) (s : Settings) :
    valuesFor (fields.get ⟨i, hi⟩).name (written fields s) =
      ((fields.get ⟨i, hi⟩).write s).toList :=
  apart_fields.valuesFor_written (List.get_mem ..) s

/-- Written settings say what they were, but for an empty range mode. -/
theorem givenBy_written (hmax : fits64 s.maxNumberOfProblems = true)
    (hoffset : fits64 s.lintOffset = true) : GivenBy (written fields s) s.filled := by
  have hvalues₀ : valuesFor "maxNumberOfProblems" (written fields s) =
      [.int s.maxNumberOfProblems] :=
    valuesFor_written (i := 0) (by decide) s
  have hvalues₁ : valuesFor "rangeMode" (written fields s) =
      (if s.rangeMode.isEmpty then none else some (.str s.rangeMode)).toList :=
    valuesFor_written (i := 1) (by decide) s
  have hvalues₂ : valuesFor "lintOffset" (written fields s) =
      (if s.lintOffset == 0 then none else some (.int s.lintOffset)).toList :=
    valuesFor_written (i := 2) (by decide) s
  have hvalues₃ : valuesFor "reportErrors" (written fields s) =
      (if s.reportErrors.isNone then none
        else some ((nullable flag).write s.reportErrors)).toList :=
    valuesFor_written (i := 3) (by decide) s
  constructor
  · rw [hvalues₀, filled_maxNumberOfProblems]
    exact lastGiven_singleton.2 (integer64?_int hmax)
  · rw [hvalues₁, filled_rangeMode]
    -- a blank is left out, and the default takes its place
    by_cases h : s.rangeMode = ""
    · simp [h, notNull, lastGiven_nil]
    · rw [if_neg (by simpa using h), if_neg h]
      exact lastGiven_singleton.2 rfl
  · rw [hvalues₂, filled_lintOffset]
    by_cases h : s.lintOffset = 0
    · simp [h, notNull, lastGiven_nil]
    · rw [if_neg (by simpa using h)]
      exact lastGiven_singleton.2 (integer64?_int hoffset)
  · rw [hvalues₃, filled_reportErrors]
    cases h : s.reportErrors with
    | none => exact lastGiven_nil.2 rfl
    | some b => exact lastGiven_singleton.2 rfl

/-- Settings are written as an object of plain values. -/
theorem writable_write (s : Settings) : Writable 1 (codec.write s) := by
  refine writable_record default fun f hf v hv => ?_
  simp only [fields, List.mem_cons, List.not_mem_nil, or_false] at hf
  -- one case for each field
  obtain rfl | rfl | rfl | rfl := hf
  · obtain rfl := Option.some.inj hv
    exact .num ..
  · rw [eq_of_write_whenSet hv]
    exact .str _
  · rw [eq_of_write_whenSet hv]
    exact .num ..
  · rw [eq_of_write_whenSet hv]
    cases s.reportErrors with
    | none => exact .null
    | some b => exact .bool b

/-- Written settings come back filled. -/
theorem takeIn_written (hmax : fits64 s.maxNumberOfProblems = true)
    (hoffset : fits64 s.lintOffset = true) (target : Settings) :
    takeIn target (Bytes.ofString (codec.writeText s)) = (s.filled, none) :=
  (takeIn_obj_iff ((writable_write s).ofBytes?_render (by decide))).2 (givenBy_written hmax hoffset)

/-- Range modes matter only as far as they are the one for lines. -/
theorem diagnoseAll_filled (s : Settings) (issues : List Issue) :
    diagnoseAll s.filled issues = diagnoseAll s issues := by
  have hmode : (s.filled.rangeMode = "line") = (s.rangeMode = "line") := by
    rw [filled_rangeMode]
    by_cases h : s.rangeMode = ""
    · simp [h]
    · rw [if_neg h]
  simp only [diagnoseAll, Issue.diagnose, Issue.diagnosticRange, Issue.diagnosticLine, hmode,
    filled_lintOffset]

theorem limit_filled (s : Settings) (ds : List Diagnostic) : s.filled.limit ds = s.limit ds := by
  simp only [limit, filled_maxNumberOfProblems]

theorem reportsErrors_filled (s : Settings) : s.filled.reportsErrors = s.reportsErrors := by
  simp only [reportsErrors, filled_reportErrors]

/-! ## Together -/

/-- **Settings are taken in as they were given.** Written settings come back, but for an empty range
    mode, which nobody can tell from the default. Of an object, each field takes the last value for
    its own name, and the default where there is none. What is refused changes nothing. -/
theorem taken_in_as_given (s : Settings) (hmax : fits64 s.maxNumberOfProblems = true)
    (hoffset : fits64 s.lintOffset = true) (target : Settings) :
    takeIn target (Bytes.ofString (codec.writeText s)) = (s.filled, none) ∧
      ((∀ issues, diagnoseAll s.filled issues = diagnoseAll s issues) ∧
        (∀ ds, s.filled.limit ds = s.limit ds) ∧ s.filled.reportsErrors = s.reportsErrors) ∧
      (∀ text ms, ofBytes? text = some (.obj ms) →
        ∀ t, takeIn target text = (t, none) ↔ GivenBy ms t) ∧
      ∀ text e, (takeIn target text).2 = some e → (takeIn target text).1 = target := by
  refine ⟨takeIn_written hmax hoffset target,
    ⟨diagnoseAll_filled s, limit_filled s, reportsErrors_filled s⟩, ?_, ?_⟩
  · intro text ms h t
    exact takeIn_obj_iff h
  · intro text e h
    rw [takeIn, taken_refused h]

/-- Members that repeat, in several spellings, with `null` between them. -/
def repeated : List (String × Json) :=
  [("rangeMode", .str "line"), ("LintOffset", .int 4), ("RANGEMODE", .null),
    ("reportErrors", .bool false), ("lintoffset", .int (-2)), ("other", .str "?"),
    ("maxNumberOfProblems", .null), ("ReportErrors", .null)]

/-- The last spelling counts, a `null` in between does not, and a list is refused. -/
theorem taken_in_as_given_repeated :
    (fits64 (-3) = true ∧ fits64 max64 = true ∧
      takeIn {} (Bytes.ofString (codec.writeText ⟨-3, "", max64, some false⟩)) =
        (⟨-3, "character", max64, some false⟩, none)) ∧
      takeIn ⟨-3, "", max64, some false⟩ (Bytes.ofString (Json.obj repeated).render) =
        (⟨1000, "line", -2, none⟩, none) ∧
      takeIn ⟨-3, "", max64, some false⟩ (Bytes.ofString "[]") =
        (⟨-3, "", max64, some false⟩, some .mismatch) := by
  have hwritable : ∀ m ∈ repeated, Writable 0 m.2 := by
    intro m hm
    simp only [repeated, List.mem_cons, List.not_mem_nil, or_false] at hm
    obtain rfl | rfl | rfl | rfl | rfl | rfl | rfl | rfl := hm
    all_goals first | exact .null | exact .bool _ | exact .num .. | exact .str _
  have hrepeated : ofBytes? (Bytes.ofString (Json.obj repeated).render) = some (.obj repeated) :=
    (Writable.obj hwritable).ofBytes?_render (by decide)
  have hlaws := taken_in_as_given ⟨-3, "", max64, some false⟩ (by decide) (by decide)
  have hrefused : (takeIn ⟨-3, "", max64, some false⟩ (Bytes.ofString "[]")).2 =
      some .mismatch := by decide
  refine ⟨⟨by decide, by decide, (hlaws {}).1⟩, ?_, ?_⟩
  · exact ((hlaws _).2.2.1 _ _ hrepeated _).2 (by decide)
  · exact Prod.ext ((hlaws _).2.2.2 _ _ hrefused) hrefused

end MarkupLint.Settings
