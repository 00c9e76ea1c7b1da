/-
  Issues on the wire.

  A codec restores a value when what it writes for it is read as that value (`Restores`). A record
  that is written and read again is gone through field by field, into a record that is still blank
  where the next field belongs (`readMembers_written`). A field that was left out stays blank, which
  is what it was; any other takes back what it has written. So a record comes back when its fields
  do, and a list when its elements do.
-/
import MarkupLint.LintOutput
import MarkupLint.Proofs.RecordCodecs

namespace MarkupLint
namespace Codec

open Json

variable {α ρ : Type} {c : Codec α} {f : Field ρ} {fields : List (Field ρ)} {r s t : ρ}
  {name : String} {get : ρ → α} {set : ρ → α → ρ}

/-! ## What comes back -/

/-- What is written for the value is read as that value. -/
def Restores (c : Codec α) (a : α) : Prop := c.readOne (c.write a) = .ok a

theorem restores_string (s : String) : string.Restores s := rfl

/-- A number that fits is read back from its text. -/
theorem restores_integer {n : Int} (h : fits64 n = true) : integer.Restores n :=
  integer_eq_ok_iff.2 (lastGiven_singleton.2 (integer64?_int h))

/-- A list is read place by place. -/
theorem readFrom_map_write {as : List α} (h : ∀ a ∈ as, c.Restores a) :
    Places.readFrom c [] (as.map fun a => [c.write a]) = .ok as := by
  induction as with
  | nil => rfl
  | cons a as ih =>
    have hfirst : c.read c.blank [c.write a] = .ok a := h a List.mem_cons_self
    have hrest := ih fun b hb => h b (List.mem_cons_of_mem a hb)
    show (c.read c.blank [c.write a] >>= fun x => Places.readFrom c [] _ >>= fun xs =>
        pure (x :: xs)) = _
    rw [hfirst, hrest]
    rfl

/-- A list that is read first has one value in each place. -/
theorem addTo_nil (vs : List Json) : Places.addTo [] vs = vs.map fun v => [v] := by
  induction vs with
  | nil => rfl
  | cons v vs ih => rw [Places.addTo, ih, List.map_cons]

/-- A list comes back if its elements do. -/
theorem restores_list {as : List α} (h : ∀ a ∈ as, c.Restores a) : (list c).Restores (some as) := by
  cases as with
  | nil => rfl
  | cons a as =>
    have hread := readFrom_map_write h
    -- the empty list is a case of its own, as a list is read only where there is one
    show (Places.readFrom c [] (Places.addTo [] ((a :: as).map c.write)) >>= fun elements =>
      pure ((some ((a :: as).map c.write).length).map elements.take)) = _
    rw [addTo_nil, List.map_map]
    show (Places.readFrom c [] ((a :: as).map fun a => [c.write a]) >>= _) = _
    rw [hread]
    show Except.ok (some ((a :: as).take ((a :: as).map c.write).length)) = _
    rw [List.length_map, List.take_length]

/-! ## Records -/

/-- What a field makes of its own member in a record that was written. -/
def Field.takeBack (f : Field ρ) (r s : ρ) : Except ReadError ρ :=
  (f.write r).elim (.ok s) fun v => f.read s [v]

/-- A written record is read field by field. -/
theorem readMembers_written (h : Apart fields) (r s : ρ) :
    readMembers fields s (written fields r) = fields.foldlM (fun s f => f.takeBack r s) s := by
  rw [readMembers_eq h]
  refine foldlM_congr (fun f hf s => ?_) s
  rw [Field.take, h.valuesFor_written hf, Field.takeBack]
  cases f.write r with
  | none => rfl
  | some v => rfl

/-- A record comes back if taking its fields back, one by one, leads from the blank one to it. -/
theorem restores_record {blank : ρ} (h : Apart fields)
    (hfields : fields.foldlM (fun s f => f.takeBack r s) blank = .ok r) :
    (record blank fields).Restores r := by
  show readMembers fields blank ([] ++ written fields r) = .ok r
  rw [List.nil_append, readMembers_written h, hfields]

theorem foldlM_takeBack_cons (h : f.takeBack r s = .ok t) :
    (f :: fields).foldlM (fun s f => f.takeBack r s) s =
      fields.foldlM (fun s f => f.takeBack r s) t := by
  rw [List.foldlM_cons, h]
  rfl

/-- A field that is always written comes back into a place that is blank. -/
theorem takeBack_always (h : c.Restores (get r)) (hblank : get s = c.blank := by rfl) :
    (Field.always name c get set).takeBack r s = .ok (set s (get r)) := by
  show (c.read (get s) [c.write (get r)]).map (set s) = _
  rw [hblank]
  have hread : c.read c.blank [c.write (get r)] = .ok (get r) := h
  rw [hread]
  rfl

/-- A field that was left out was blank, and the place stays so. -/
theorem takeBack_whenSet (h : c.Restores (get r))
    (hleft : c.isBlank (get r) = true → get r = c.blank) (hblank : get s = c.blank := by rfl)
    (hset : set s (get s) = s := by rfl) :
    (Field.whenSet name c get set).takeBack r s = .ok (set s (get r)) := by
  unfold Field.takeBack
  by_cases hr : c.isBlank (get r) = true
  · have hnone : (Field.whenSet name c get set).write r = none := if_pos hr
    rw [hnone, hleft hr, ← hblank, hset]
    rfl
  · have hsome : (Field.whenSet name c get set).write r = some (c.write (get r)) := if_neg hr
    rw [hsome]
    exact (takeBack_always h hblank : (Field.always name c get set).takeBack r s = _)

/-- The one blank text is the empty one. -/
theorem eq_blank_of_isBlank_string {x : String} (h : string.isBlank x = true) : x = string.blank :=
  String.isEmpty_iff.1 h

theorem eq_blank_of_isBlank_integer {n : Int} (h : integer.isBlank n = true) : n = integer.blank :=
  eq_of_beq h

/-- The member of a field in a written record. -/
theorem Apart.get?_write (h : Apart fields) (hf : f ∈ fields) (blank r : ρ) :
    ((record blank fields).write r).get? f.name = f.write r := by
  obtain ⟨before, after, rfl⟩ := List.append_of_mem hf
  rw [Apart, List.map_append, List.map_cons, List.nodup_append, List.nodup_cons] at h
  obtain ⟨-, ⟨hafter, -⟩, hbefore⟩ := h
  -- fields before and after it write under other names
  have hnone : ∀ gs : List (Field ρ), (∀ g ∈ gs, g.name ≠ f.name) →
      (written gs r).reverse.find? (·.1 == f.name) = none := by
    intro gs hgs
    rw [List.find?_eq_none]
    intro m hm
    obtain ⟨g, hg, hwrite⟩ := List.mem_filterMap.1 (List.mem_reverse.1 hm)
    obtain ⟨v, -, rfl⟩ := Option.map_eq_some_iff.1 hwrite
    simpa using hgs g hg
  have hlast := hnone after fun g hg heq => hafter (heq ▸ List.mem_map_of_mem hg)
  have hfirst := hnone before fun g hg heq =>
    hbefore _ (List.mem_map_of_mem hg) _ List.mem_cons_self (by rw [heq])
  show ((written (before ++ f :: after) r).reverse.find? (·.1 == f.name)).map (·.2) = _
  rw [written_append, List.reverse_append, List.find?_append, hfirst, Option.or_none]
  cases hwrite : f.write r with
  | none =>
    rw [show written (f :: after) r = written after r by simp [written, hwrite], hlast]
    rfl
  | some v =>
    rw [show written (f :: after) r = (f.name, v) :: written after r by simp [written, hwrite],
      List.reverse_cons, List.find?_append, hlast]
    simp

end Codec

open Codec Json

/-! ## Issues -/

/-- The numbers of the issue are 64-bit numbers. -/
structure Issue.Fits (i : Issue) : Prop where
  line : fits64 i.line = true
  column : fits64 i.column = true
  width : fits64 i.data.width = true
  limit : fits64 i.data.limit = true

theorem IssueData.apart_fields : Apart fields := by decide

theorem Issue.apart_fields : Apart fields := by decide

/-- The details of an issue come back, each left out where it is blank. -/
theorem IssueData.restores {d : IssueData} (hwidth : fits64 d.width = true)
    (hlimit : fits64 d.limit = true) : codec.Restores d := by
  refine restores_record apart_fields ?_
  -- six texts, and then two numbers
  iterate 6
    refine (foldlM_takeBack_cons
      (takeBack_whenSet (restores_string _) eq_blank_of_isBlank_string)).trans ?_
  refine (foldlM_takeBack_cons
    (takeBack_whenSet (restores_integer hwidth) eq_blank_of_isBlank_integer)).trans ?_
  refine (foldlM_takeBack_cons
    (takeBack_whenSet (restores_integer hlimit) eq_blank_of_isBlank_integer)).trans ?_
  rfl

/-- An issue comes back. All fields but the message are written in any case. -/
theorem Issue.Fits.restores {i : Issue} (h : i.Fits) : codec.Restores i := by
  refine restores_record Issue.apart_fields ?_
  refine (foldlM_takeBack_cons (takeBack_always (restores_string _))).trans ?_
  refine (foldlM_takeBack_cons (takeBack_always (restores_string _))).trans ?_
  refine (foldlM_takeBack_cons (takeBack_always (restores_integer h.line))).trans ?_
  refine (foldlM_takeBack_cons (takeBack_always (restores_integer h.column))).trans ?_
  refine (foldlM_takeBack_cons (takeBack_always (IssueData.restores h.width h.limit))).trans ?_
  refine (foldlM_takeBack_cons
    (takeBack_whenSet (restores_string _) eq_blank_of_isBlank_string)).trans ?_
  rfl

/-- The details are one level deep. -/
theorem IssueData.writable_write (d : IssueData) : Writable 1 (codec.write d) := by
  refine writable_record {} fun f hf v hv => ?_
  simp only [fields, List.mem_cons, List.not_mem_nil, or_false] at hf
  obtain rfl | rfl | rfl | rfl | rfl | rfl | rfl | rfl := hf
  all_goals rw [eq_of_write_whenSet hv]
  iterate 6 exact .str _
  iterate 2 exact .num ..

/-- An issue is two levels deep. -/
theorem Issue.writable_write (i : Issue) : Writable 2 (codec.write i) := by
  refine writable_record {} fun f hf v hv => ?_
  simp only [fields, List.mem_cons, List.not_mem_nil, or_false] at hf
  obtain rfl | rfl | rfl | rfl | rfl | rfl := hf
  · obtain rfl := Option.some.inj hv
    exact .str _
  · obtain rfl := Option.some.inj hv
    exact .str _
  · obtain rfl := Option.some.inj hv
    exact .num ..
  · obtain rfl := Option.some.inj hv
    exact .num ..
  · obtain rfl := Option.some.inj hv
    exact IssueData.writable_write i.data
  · rw [eq_of_write_whenSet hv]
    exact .str _

/-! ## What is written -/

/-- The member for a text, left out when it is empty. -/
def textMember (s : String) : Option Json := if s = "" then none else some (.str s)

/-- The member for a number, left out when it is zero. -/
def numberMember (n : Int) : Option Json := if n = 0 then none else some (.int n)

/-- The value holds the details that are set, each under its name, and no others. -/
structure IssueData.StandsAs (d : IssueData) (v : Json) : Prop where
  attr : v.get? "attribute" = textMember d.attr
  format : v.get? "format" = textMember d.format
  value : v.get? "value" = textMember d.value
  chars : v.get? "chars" = textMember d.chars
  desc : v.get? "desc" = textMember d.desc
  part : v.get? "part" = textMember d.part
  width : v.get? "width" = numberMember d.width
  limit : v.get? "limit" = numberMember d.limit

/-- The value holds the issue, its message only when there is one. -/
structure Issue.StandsAs (i : Issue) (v : Json) : Prop where
  code : v.get? "code" = some (.str i.code)
  rule : v.get? "rule" = some (.str i.rule)
  line : v.get? "line" = some (.int i.line)
  column : v.get? "column" = some (.int i.column)
  data : ∃ w, v.get? "data" = some w ∧ i.data.StandsAs w
  msg : v.get? "msg" = textMember i.msg

theorem textMember_eq (s : String) :
    textMember s = if string.isBlank s then none else some (string.write s) :=
  if_congr String.isEmpty_iff.symm rfl rfl

theorem numberMember_eq (n : Int) :
    numberMember n = if integer.isBlank n then none else some (integer.write n) :=
  if_congr beq_iff_eq.symm rfl rfl

/-- Each detail is found under its name. -/
theorem IssueData.get?_write {k : Nat} (hk : k < fields.length) (d : IssueData) :
    (codec.write d).get? (fields.get ⟨k, hk⟩).name = (fields.get ⟨k, hk⟩).write d :=
  apart_fields.get?_write (List.get_mem ..) _ d

theorem Issue.get?_write {k : Nat} (hk : k < fields.length) (i : Issue) :
    (codec.write i).get? (fields.get ⟨k, hk⟩).name = (fields.get ⟨k, hk⟩).write i :=
  apart_fields.get?_write (List.get_mem ..) _ i

/-- What is written holds just the details that are set. -/
theorem IssueData.standsAs_write (d : IssueData) : d.StandsAs (codec.write d) := by
  constructor
  · exact (get?_write (k := 0) (by decide) d).trans (textMember_eq _).symm
  · exact (get?_write (k := 1) (by decide) d).trans (textMember_eq _).symm
  · exact (get?_write (k := 2) (by decide) d).trans (textMember_eq _).symm
  · exact (get?_write (k := 3) (by decide) d).trans (textMember_eq _).symm
  · exact (get?_write (k := 4) (by decide) d).trans (textMember_eq _).symm
  · exact (get?_write (k := 5) (by decide) d).trans (textMember_eq _).symm
  · exact (get?_write (k := 6) (by decide) d).trans (numberMember_eq _).symm
  · exact (get?_write (k := 7) (by decide) d).trans (numberMember_eq _).symm

theorem Issue.standsAs_write (i : Issue) : i.StandsAs (codec.write i) := by
  constructor
  · exact get?_write (k := 0) (by decide) i
  · exact get?_write (k := 1) (by decide) i
  · exact get?_write (k := 2) (by decide) i
  · exact get?_write (k := 3) (by decide) i
  · exact ⟨_, get?_write (k := 4) (by decide) i, i.data.standsAs_write⟩
  · exact (get?_write (k := 5) (by decide) i).trans (textMember_eq _).symm

/-! ## Outputs -/

namespace LintOutput

/-- The output that lists the issues, or is no list. -/
def jsonOf (issues : Option (List Issue)) : String := (list Issue.codec).writeText issues

theorem jsonOf_eq (issues : Option (List Issue)) :
    jsonOf issues = ((list Issue.codec).write issues).render := rfl

/-- A list of issues is three levels deep. -/
theorem writable_issues (issues : Option (List Issue)) :
    Writable 3 ((list Issue.codec).write issues) := by
  cases issues with
  | none => exact .null
  | some issues =>
    refine .arr fun v hv => ?_
    obtain ⟨i, -, rfl⟩ := List.mem_map.1 hv
    exact i.writable_write

/-- A list of issues comes back, and so does the lack of one. -/
theorem restores_issues {issues : Option (List Issue)} (h : ∀ i ∈ issues.getD [], i.Fits) :
    (list Issue.codec).Restores issues := by
  cases issues with
  | none => rfl
  | some issues => exact restores_list fun i hi => (h i hi).restores

/-- A list begins with a bracket, so the output is not blank, and neither is it without a list. -/
theorem isBlankLine_jsonOf (before after : String) (issues : Option (List Issue)) :
    Blank.isBlankLine (Bytes.ofString (before ++ jsonOf issues ++ after)) = false := by
  obtain ⟨c, hc, hblank⟩ : ∃ c ∈ renderChars ((list Issue.codec).write issues),
      Blank.isBlank c = false := by
    rcases issues with _ | _ | ⟨i, is⟩
    · exact ⟨'n', by simp [list, renderChars], by decide⟩
    · exact ⟨'[', by simp [list, renderChars], by decide⟩
    · exact ⟨'[', by simp [list, renderChars], by decide⟩
  rw [Blank.isBlankLine, Utf8.chars_ofString, List.all_eq_false]
  refine ⟨c, ?_, by simp [hblank]⟩
  simp [jsonOf_eq, render, hc]

/-- **Issues come back from the output that lists them.** Take any issues whose numbers are 64-bit
    numbers. Their output holds of each issue what is set, and leaves the rest out. Whatever white
    space is put around the output, reading it succeeds and gives the same issues again, and no list
    where there was none. -/
theorem issues_come_back (issues : Option (List Issue)) (hfits : ∀ i ∈ issues.getD [], i.Fits) :
    (∀ is, issues = some is → ∃ vs, jsonOf issues = (Json.arr vs).render ∧
      List.Forall₂ Issue.StandsAs is vs) ∧
    ∀ before after : String, (∀ c ∈ before.toList, isGap c = true) →
      (∀ c ∈ after.toList, isGap c = true) →
      ofJson (Bytes.ofString (before ++ jsonOf issues ++ after)) = .ok issues := by
  constructor
  · rintro is rfl
    refine ⟨is.map Issue.codec.write, jsonOf_eq (some is), ?_⟩
    rw [List.forall₂_map_right_iff, List.forall₂_same]
    exact fun i _ => i.standsAs_write
  · -- the text is read as the value that was written, and that as the issues
    intro before after hbefore hafter
    have htext := (writable_issues issues).ofBytes?_eq (by decide) before after hbefore hafter
    have hread : (list Issue.codec).readOne ((list Issue.codec).write issues) = .ok issues :=
      restores_issues hfits
    rw [ofJson, isBlankLine_jsonOf, readText, jsonOf_eq, htext]
    simp only [Bool.false_eq_true, if_false, hread]

/-- An issue with all that needs an escape, and with the ends of the range of numbers. -/
def awkward : Issue where
  code := "E011"
  line := max64
  column := min64
  data := { value := "\"\\/<p>&\u2028\x00\x1f\x7f😀", desc := "\t\r\n", width := -1 }

/-- Both come back from between white space, the blank one with its empty members. -/
theorem issues_come_back_awkward :
    (∀ i ∈ [awkward, {}], i.Fits) ∧
      ofJson (Bytes.ofString (" \n\t" ++ jsonOf (some [awkward, {}]) ++ "\r\n")) =
        .ok (some [awkward, {}]) ∧
      ∃ v w, jsonOf (some [awkward, {}]) = (Json.arr [v, w]).render ∧
        v.get? "rule" = some (.str "") ∧ v.get? "msg" = none ∧ w.get? "msg" = none := by
  have hfits : ∀ i ∈ [awkward, {}], i.Fits := by
    intro i hi
    simp only [List.mem_cons, List.not_mem_nil, or_false] at hi
    obtain rfl | rfl := hi
    · exact ⟨by decide, by decide, by decide, by decide⟩
    · exact ⟨by decide, by decide, by decide, by decide⟩
  obtain ⟨hholds, hread⟩ := issues_come_back (some [awkward, {}]) hfits
  obtain ⟨vs, htext, hvs⟩ := hholds _ rfl
  refine ⟨hfits, hread _ _ (List.all_eq_true.1 (by decide)) (List.all_eq_true.1 (by decide)), ?_⟩
  cases hvs with
  | cons hv hrest =>
    cases hrest with
    | cons hw hnil =>
      cases hnil
      exact ⟨_, _, htext, hv.rule, hv.msg, hw.msg⟩

end LintOutput
end MarkupLint
