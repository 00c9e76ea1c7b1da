/-
  The two rules on duplicates report what is there twice, and nothing else: names of attributes
  within one tag, and ids within the document.

  Both go through a list and report what has the same key as something before it (`repeated`). What
  they have seen is in one case what came before in the tag, and in the other all ids before, in the
  same tag or an earlier one. Since different attributes have different places (`Mark.place_ne`), it
  can be told from an issue which of them it is about.
-/
import Mathlib.Data.Finset.Card
import MarkupLint.Proofs.PlaceOrder

namespace MarkupLint.Rule

open Markup

/-! ## What is there twice -/

section Repeated

variable {α κ : Type} [DecidableEq κ] {key : α → κ}

/-- The elements that have the key of an earlier one, or one of the keys in `seen`. -/
def repeated (key : α → κ) : List κ → List α → List α
  | _, [] => []
  | seen, a :: as => (if key a ∈ seen then [a] else []) ++ repeated key (key a :: seen) as

/-- The first part of a list adds its keys to those seen before the second one. -/
theorem repeated_append (seen : List κ) (as bs : List α) :
    repeated key seen (as ++ bs) =
      repeated key seen as ++ repeated key ((as.map key).reverse ++ seen) bs := by
  induction as generalizing seen with
  | nil => rfl
  | cons a as ih => simp [repeated, ih]

theorem repeated_sublist (seen : List κ) (as : List α) : (repeated key seen as).Sublist as := by
  induction as generalizing seen with
  | nil => exact .slnil
  | cons a as ih =>
    rw [repeated]
    split
    · exact (ih _).cons_cons a
    · exact (ih _).cons a

/-- An element that is not there itself again is among these just when its key was there before. -/
theorem mem_repeated_iff {before after : List α} {a : α} (h : (before ++ a :: after).Nodup) :
    a ∈ repeated key [] (before ++ a :: after) ↔ ∃ b ∈ before, key b = key a := by
  obtain ⟨-, hrest, hdisjoint⟩ := List.nodup_append.mp h
  -- the element itself is neither before nor after its place
  have hbefore : a ∉ repeated key [] before := fun hmem =>
    hdisjoint a ((repeated_sublist _ _).subset hmem) a List.mem_cons_self rfl
  have hafter : ∀ seen, a ∉ repeated key seen after := fun seen hmem =>
    (List.nodup_cons.mp hrest).1 ((repeated_sublist _ _).subset hmem)
  rw [repeated_append, repeated]
  simp [hbefore, hafter]

/-- What is there twice, and one of each key, makes up the whole list. -/
theorem length_repeated_add (seen : List κ) (as : List α) :
    (repeated key seen as).length + (seen ++ as.map key).toFinset.card =
      seen.toFinset.card + as.length := by
  induction as generalizing seen with
  | nil => simp [repeated]
  | cons a as ih =>
    have hrest := ih (key a :: seen)
    have hkeys : (key a :: seen ++ as.map key).toFinset = (seen ++ (a :: as).map key).toFinset := by
      ext k
      simp
    rw [hkeys] at hrest
    -- a key seen before is counted as repeated, a new one adds a key
    by_cases hseen : key a ∈ seen
    · have hcard : (key a :: seen).toFinset.card = seen.toFinset.card := by
        rw [List.toFinset_cons, Finset.insert_eq_self.mpr (List.mem_toFinset.mpr hseen)]
      simp only [repeated, if_pos hseen, List.length_append, List.length_cons, List.length_nil]
      omega
    · have hcard : (key a :: seen).toFinset.card = seen.toFinset.card + 1 := by
        rw [List.toFinset_cons, Finset.card_insert_of_notMem (by simpa using hseen)]
      simp only [repeated, if_neg hseen, List.length_append, List.length_cons, List.length_nil]
      omega

/-- So many elements are there twice as there are more of them than keys. -/
theorem length_repeated (as : List α) :
    (repeated key [] as).length = as.length - (as.map key).toFinset.card := by
  have hall : (repeated key [] as).length + ([] ++ as.map key).toFinset.card = _ :=
    length_repeated_add [] as
  simp only [List.nil_append, List.toFinset_nil, Finset.card_empty] at hall
  omega

end Repeated

/-! ## Attributes and their places -/

variable {T : Tokenizer} {s : Source} {o : Options} {text : Bytes} {t : Tag} {a : Attribute}

/-- The attributes of the tags, each with its tag. -/
def occurrences (ts : List Tag) : List (Tag × Attribute) :=
  ts.flatMap fun t => t.attributes.map fun a => (t, a)

/-- The offset of an attribute. -/
def offsetIn (p : Tag × Attribute) : Nat := p.1.offsetOf p.2

theorem mem_occurrences {ts : List Tag} {p : Tag × Attribute} :
    p ∈ occurrences ts ↔ p.1 ∈ ts ∧ p.2 ∈ p.1.attributes := by
  simp only [occurrences, List.mem_flatMap, List.mem_map]
  constructor
  · rintro ⟨t, ht, a, ha, rfl⟩
    exact ⟨ht, ha⟩
  · rintro ⟨ht, ha⟩
    exact ⟨p.1, ht, p.2, ha, rfl⟩

theorem map_snd_occurrences (ts : List Tag) :
    (occurrences ts).map Prod.snd = ts.flatMap Tag.attributes := by
  simp [occurrences, List.map_flatMap, Function.comp_def]

/-- Attributes are among the places that issues are reported at. -/
theorem mark_of_mem_occurrences {p : Tag × Attribute}
    (h : p ∈ occurrences (T.outline (.ofText text)).tags) :
    Mark T text (offsetIn p) := by
  obtain ⟨ht, ha⟩ := mem_occurrences.mp h
  exact .ofAttribute ht ha

/-- Attributes stand in the text one behind the other. -/
theorem occurrences_in_order (T : Tokenizer) (text : Bytes) :
    (occurrences (T.outline (.ofText text)).tags).Pairwise fun p q => offsetIn p < offsetIn q := by
  obtain ⟨hall, hpairs⟩ := outline_in_order T text
  -- within a tag by the order of its attributes, between tags because one ends before the next
  -- begins
  refine List.pairwise_flatMap.mpr ⟨fun t ht => ?_, hpairs.imp ?_⟩
  · obtain ⟨raw, hread⟩ := hall t ht
    exact List.pairwise_map.mpr (hread.standsIn.attributes_sorted.imp fun h => h.1)
  · rintro t u ⟨raw, hread, hle⟩ p hp q hq
    obtain ⟨a, ha, rfl⟩ := List.mem_map.mp hp
    obtain ⟨b, hb, rfl⟩ := List.mem_map.mp hq
    have hlt : t.offset + a.offset < u.offset :=
      ((hread.standsIn.mono hle).attributes_in a ha).2.offset_lt
    show t.offset + a.offset < u.offset + b.offset
    omega

/-- No attribute is there twice. -/
theorem nodup_occurrences (T : Tokenizer) (text : Bytes) :
    (occurrences (T.outline (.ofText text)).tags).Nodup := by
  refine (occurrences_in_order T text).imp fun hlt heq => ?_
  rw [heq] at hlt
  exact Nat.lt_irrefl _ hlt

/-- Different attributes have different offsets. -/
theorem offsetIn_inj {p q : Tag × Attribute} (hp : p ∈ occurrences (T.outline (.ofText text)).tags)
    (hq : q ∈ occurrences (T.outline (.ofText text)).tags) : offsetIn p = offsetIn q ↔ p = q := by
  have hnodup : ((occurrences (T.outline (.ofText text)).tags).map offsetIn).Nodup :=
    List.pairwise_map.mpr ((occurrences_in_order T text).imp Nat.ne_of_lt)
  exact ⟨fun heq => List.inj_on_of_nodup_map hnodup hp hq heq, fun heq => by rw [heq]⟩

/-! ## The issues of the two rules -/

/-- The issue on an attribute whose name is there before in its tag. -/
def nameIssue (s : Source) (p : Tag × Attribute) : Issue :=
  issueAt s (offsetIn p) "E003" "attr-no-dup" { attr := p.2.name.toText }

/-- The issue on an id that is there before in the document. -/
def idIssue (s : Source) (p : Tag × Attribute) : Issue :=
  issueAt s (offsetIn p) "E012" "id-no-dup"
    { attr := p.2.name.toText, value := (valueOf p.2).toText }

/-- The attributes whose names are there before in their tags. -/
def repeatedNames (ts : List Tag) : List (Tag × Attribute) :=
  ts.flatMap fun t => (repeated lowerName [] t.attributes).map fun a => (t, a)

/-- Those that give ids. -/
def idsAmong (ps : List (Tag × Attribute)) : List (Tag × Attribute) := ps.filter fun p => isId p.2

/-- The value of an attribute. -/
def valueIn (p : Tag × Attribute) : Bytes := valueOf p.2

/-- The attributes that give ids which are there before. -/
def repeatedIds (ts : List Tag) : List (Tag × Attribute) :=
  repeated valueIn [] (idsAmong (occurrences ts))

/-- With the other rules turned off, the issues of an attribute are those of the rule on names. -/
theorem checkAttribute_only_attrNoDup (h : o.attrNoDup = true) (seen : Seen) (t : Tag)
    (a : Attribute) :
    checkAttribute s (o.only .attrNoDup) seen (t.offsetOf a) a =
      if lowerName a ∈ seen.names then [nameIssue s (t, a)] else [] := by
  rw [checkAttribute, (governedBy_checkBan s _ a).other o .attrNoDup (by decide),
    (governedBy_checkNameStyle s _ a).other o .attrNoDup (by decide),
    (governedBy_checkValueStyle s _ a).other o .attrNoDup (by decide),
    (governedBy_checkId s _ a seen.ids).other o .attrNoDup (by decide),
    (governedBy_checkDuplicate s _ a seen.names).own o]
  simp [checkDuplicate, h, nameIssue, offsetIn]

theorem checkAttribute_only_idNoDup (h : o.idNoDup = true) (seen : Seen) (t : Tag) (a : Attribute) :
    checkAttribute s (o.only .idNoDup) seen (t.offsetOf a) a =
      if isId a = true ∧ valueOf a ∈ seen.ids then [idIssue s (t, a)] else [] := by
  rw [checkAttribute, (governedBy_checkBan s _ a).other o .idNoDup (by decide),
    (governedBy_checkNameStyle s _ a).other o .idNoDup (by decide),
    (governedBy_checkValueStyle s _ a).other o .idNoDup (by decide),
    (governedBy_checkDuplicate s _ a seen.names).other o .idNoDup (by decide),
    (governedBy_checkId s _ a seen.ids).own o]
  simp [checkId, h, idIssue, offsetIn]

/-- Names are looked for in the tag. -/
theorem checkAttributes_only_attrNoDup (h : o.attrNoDup = true) (t : Tag) (seen : Seen)
    (as : List Attribute) :
    (checkAttributes s (o.only .attrNoDup) t seen as).1 =
      ((repeated lowerName seen.names as).map fun a => (t, a)).map (nameIssue s) := by
  induction as generalizing seen with
  | nil => rfl
  | cons a as ih =>
    show checkAttribute s (o.only .attrNoDup) seen (t.offsetOf a) a ++
      (checkAttributes s (o.only .attrNoDup) t (seen.after a) as).1 = _
    rw [checkAttribute_only_attrNoDup h, ih, repeated, List.map_append, List.map_append]
    congr 1
    split <;> rfl

/-- Each tag is looked at for itself. -/
theorem checkTags_only_attrNoDup (h : o.attrNoDup = true) (ids : List Bytes) (ts : List Tag) :
    checkTags s (o.only .attrNoDup) ids ts = (repeatedNames ts).map (nameIssue s) := by
  induction ts generalizing ids with
  | nil => rfl
  | cons t ts ih =>
    show (checkAttributes s (o.only .attrNoDup) t ⟨[], ids⟩ t.attributes).1 ++
      checkNewLine s (o.only .attrNoDup) t ++ checkTags s (o.only .attrNoDup) _ ts = _
    rw [checkAttributes_only_attrNoDup h,
      (governedBy_checkNewLine s t).other o .attrNoDup (by decide), ih, List.append_nil,
      ← List.map_append]
    rfl

/-- Ids are looked for in the tag and in all tags before it, and the tag adds its own to them. -/
theorem checkAttributes_only_idNoDup (h : o.idNoDup = true) (t : Tag) (seen : Seen)
    (as : List Attribute) :
    (checkAttributes s (o.only .idNoDup) t seen as).1 =
      (repeated valueIn seen.ids (idsAmong (as.map fun a => (t, a)))).map (idIssue s) ∧
    (checkAttributes s (o.only .idNoDup) t seen as).2.ids =
      ((idsAmong (as.map fun a => (t, a))).map valueIn).reverse ++ seen.ids := by
  induction as generalizing seen with
  | nil => exact ⟨rfl, rfl⟩
  | cons a as ih =>
    obtain ⟨hissues, hids⟩ := ih (seen.after a)
    show checkAttribute s (o.only .idNoDup) seen (t.offsetOf a) a ++
        (checkAttributes s (o.only .idNoDup) t (seen.after a) as).1 = _ ∧
      (checkAttributes s (o.only .idNoDup) t (seen.after a) as).2.ids = _
    rw [checkAttribute_only_idNoDup h, hissues, hids]
    -- only ids are remembered
    by_cases ha : isId a = true
    · by_cases hseen : valueOf a ∈ seen.ids
      · simp [idsAmong, Seen.after, ha, hseen, repeated, valueIn]
      · simp [idsAmong, Seen.after, ha, hseen, repeated, valueIn]
    · simp [idsAmong, Seen.after, ha]

/-- Ids are carried from tag to tag, so the whole document is one list. -/
theorem checkTags_only_idNoDup (h : o.idNoDup = true) (ids : List Bytes) (ts : List Tag) :
    checkTags s (o.only .idNoDup) ids ts =
      (repeated valueIn ids (idsAmong (occurrences ts))).map (idIssue s) := by
  induction ts generalizing ids with
  | nil => rfl
  | cons t ts ih =>
    obtain ⟨hissues, hids⟩ := checkAttributes_only_idNoDup (s := s) h t ⟨[], ids⟩ t.attributes
    have hsplit : idsAmong (occurrences (t :: ts)) =
        idsAmong (t.attributes.map fun a => (t, a)) ++ idsAmong (occurrences ts) := by
      simp [idsAmong, occurrences]
    show (checkAttributes s (o.only .idNoDup) t ⟨[], ids⟩ t.attributes).1 ++
      checkNewLine s (o.only .idNoDup) t ++
      checkTags s (o.only .idNoDup)
        (checkAttributes s (o.only .idNoDup) t ⟨[], ids⟩ t.attributes).2.ids ts = _
    rw [hissues, hids, (governedBy_checkNewLine s t).other o .idNoDup (by decide), ih,
      List.append_nil, hsplit, repeated_append, List.map_append]

/-! ## Reports on one attribute -/

/-- The issues of a rule on attributes, before they are sorted. -/
theorem ofRule_check {r : RuleName} (hr : r ≠ .indentWidth) (o : Options) (text : Bytes) :
    ofRule r (T.check o text) =
      (checkTags (.ofText text) (o.only r) [] (T.outline (.ofText text)).tags).mergeSort
        notAfter := by
  have hselects : ofRule r (T.check o text) = T.check (o.only r) text := selects_check T text o r
  have hlines : (o.only r).indentWidth = 0 := if_neg hr
  rw [hselects, Tokenizer.check, checkWith]
  simp [hlines]

/-- The issue has this place. -/
def isAt (p : Place) (i : Issue) : Bool := i.line = p.line ∧ i.column = p.column

/-- The issues of a rule at a place. -/
def reportsAt (r : RuleName) (p : Place) (issues : List Issue) : List Issue :=
  (ofRule r issues).filter (isAt p)

/-- An issue is at the place of its own mark and of no other. -/
theorem ReportedAt.isAt_iff {i : Issue} {x y : Nat} (h : ReportedAt T text i x)
    (hy : Mark T text y) :
    isAt ((Source.ofText text).place y) i = true ↔ x = y := by
  rw [isAt, decide_eq_true_iff, h.line_eq, h.column_eq]
  constructor
  · rintro ⟨hline, hcolumn⟩
    refine Decidable.not_not.mp fun hne => h.mark.place_ne hy hne ?_
    exact Place.eq_of_coordinates (by omega) (by omega)
  · rintro rfl
    exact ⟨rfl, rfl⟩

/-- A rule that reports some of the attributes, each of them once, has one issue at the place of
    each of these and none at that of any other. -/
theorem reportsAt_check {r : RuleName} (hr : r ≠ .indentWidth) {p : Tag × Attribute}
    {ps : List (Tag × Attribute)} {f : Tag × Attribute → Issue}
    (hissues : checkTags (.ofText text) (o.only r) [] (T.outline (.ofText text)).tags = ps.map f)
    (hf : ∀ q, ∃ data, f q = issueAt (.ofText text) (offsetIn q) r.code r.key data)
    (hps : ps.Sublist (occurrences (T.outline (.ofText text)).tags))
    (hp : p ∈ occurrences (T.outline (.ofText text)).tags) :
    reportsAt r ((Source.ofText text).place (offsetIn p)) (T.check o text) =
      if p ∈ ps then [f p] else [] := by
  have hreported : ∀ q ∈ ps, ReportedAt T text (f q) (offsetIn q) := by
    intro q hq
    obtain ⟨data, hdata⟩ := hf q
    rw [hdata]
    exact ⟨mark_of_mem_occurrences (hps.subset hq), rfl, rfl⟩
  have hnodup : ps.Nodup := (nodup_occurrences T text).sublist hps
  -- of those reported, the attribute itself is the only one with its offset
  have hself : ps.filter (isAt ((Source.ofText text).place (offsetIn p)) ∘ f) =
      ps.filter fun q => q = p := by
    refine List.filter_congr fun q hq => Bool.eq_iff_iff.mpr ?_
    rw [Function.comp_apply, (hreported q hq).isAt_iff (mark_of_mem_occurrences hp),
      decide_eq_true_iff]
    exact offsetIn_inj (hps.subset hq) hp
  rw [reportsAt, ofRule_check hr, filter_mergeSort notAfter_trans notAfter_total, hissues,
    List.filter_map, hself, List.filter_eq, hnodup.count]
  split <;> simp

theorem repeatedNames_sublist (ts : List Tag) : (repeatedNames ts).Sublist (occurrences ts) := by
  induction ts with
  | nil => exact .slnil
  | cons t ts ih => exact ((repeated_sublist [] t.attributes).map _).append ih

theorem mem_repeatedNames_iff {ts : List Tag} :
    (t, a) ∈ repeatedNames ts ↔ t ∈ ts ∧ a ∈ repeated lowerName [] t.attributes := by
  simp [repeatedNames]

/-- Tag by tag, the attributes beyond the different names. -/
theorem length_repeatedNames (ts : List Tag) : (repeatedNames ts).length =
    (ts.map fun t => t.attributes.length - (t.attributes.map lowerName).toFinset.card).sum := by
  simp [repeatedNames, List.length_flatMap, length_repeated]

theorem repeatedIds_sublist (ts : List Tag) : (repeatedIds ts).Sublist (occurrences ts) :=
  (repeated_sublist [] _).trans List.filter_sublist

/-- An id is reported if the same one is given before it, in the order of the text. -/
theorem mem_repeatedIds_iff {ts : List Tag} {p : Tag × Attribute}
    {before after : List (Tag × Attribute)} (hnodup : (occurrences ts).Nodup)
    (h : occurrences ts = before ++ p :: after) :
    p ∈ repeatedIds ts ↔
      isId p.2 = true ∧ ∃ q ∈ before, isId q.2 = true ∧ valueOf q.2 = valueOf p.2 := by
  by_cases hp : isId p.2 = true
  · have hids : idsAmong (occurrences ts) = idsAmong before ++ p :: idsAmong after := by
      simp [idsAmong, h, hp]
    have hnodup' : (idsAmong before ++ p :: idsAmong after).Nodup := by
      rw [← hids]
      exact hnodup.filter _
    rw [repeatedIds, hids, mem_repeated_iff hnodup']
    simp [idsAmong, valueIn, hp, and_assoc]
  · have hno : p ∉ repeatedIds ts := fun hmem =>
      hp (List.mem_filter.mp ((repeated_sublist _ _).subset hmem)).2
    simp [hp, hno]

/-! ## Documents -/

/-- The attribute stands in the tag behind those of `before`, and the tag in the text behind those
    of `earlier`. -/
def Occurs (T : Tokenizer) (text : Bytes) (earlier : List Tag) (t : Tag) (before : List Attribute)
    (a : Attribute) : Prop :=
  ∃ later after, (T.outline (.ofText text)).tags = earlier ++ t :: later ∧
    t.attributes = before ++ a :: after

/-- What stands before the attribute in the text is known. -/
theorem Occurs.occurrences_eq {earlier : List Tag} {before : List Attribute}
    (h : Occurs T text earlier t before a) :
    ∃ after, occurrences (T.outline (.ofText text)).tags =
      (occurrences earlier ++ before.map fun b => (t, b)) ++ (t, a) :: after := by
  obtain ⟨later, after, htags, hattributes⟩ := h
  refine ⟨(after.map fun b => (t, b)) ++ occurrences later, ?_⟩
  simp [occurrences, htags, hattributes]

/-- The values of the ids of a document. -/
def idValues (T : Tokenizer) (text : Bytes) : List Bytes :=
  (((T.outline (.ofText text)).tags.flatMap Tag.attributes).filter isId).map valueOf

theorem idValues_eq (T : Tokenizer) (text : Bytes) :
    idValues T text = (idsAmong (occurrences (T.outline (.ofText text)).tags)).map valueIn := by
  rw [idValues, ← map_snd_occurrences, List.filter_map, List.map_map]
  rfl

theorem Occurs.mem_occurrences {earlier : List Tag} {before : List Attribute}
    (h : Occurs T text earlier t before a) :
    (t, a) ∈ occurrences (T.outline (.ofText text)).tags := by
  obtain ⟨after, hafter⟩ := h.occurrences_eq
  rw [hafter]
  simp

/-- The name of an attribute is there before in its tag. -/
theorem Occurs.mem_repeatedNames_iff {earlier : List Tag} {before : List Attribute}
    (h : Occurs T text earlier t before a) :
    (t, a) ∈ repeatedNames (T.outline (.ofText text)).tags ↔
      ∃ b ∈ before, lowerName b = lowerName a := by
  have ht := (Rule.mem_occurrences.mp h.mem_occurrences).1
  have hnodup : t.attributes.Nodup :=
    ((List.nodup_flatMap.mp (nodup_occurrences T text)).1 t ht).of_map
  obtain ⟨later, after, -, hattributes⟩ := h
  rw [hattributes] at hnodup
  rw [Rule.mem_repeatedNames_iff, hattributes, mem_repeated_iff hnodup]
  exact and_iff_right ht

/-- An id is there before in the document. -/
theorem Occurs.mem_repeatedIds_iff {earlier : List Tag} {before : List Attribute}
    (h : Occurs T text earlier t before a) :
    (t, a) ∈ repeatedIds (T.outline (.ofText text)).tags ↔
      isId a = true ∧ ∃ b ∈ earlier.flatMap Tag.attributes ++ before, isId b = true ∧
        valueOf b = valueOf a := by
  obtain ⟨after, hafter⟩ := h.occurrences_eq
  have hsnd : earlier.flatMap Tag.attributes ++ before =
      (occurrences earlier ++ before.map fun b => (t, b)).map Prod.snd := by
    rw [List.map_append, map_snd_occurrences]
    simp [Function.comp_def]
  rw [Rule.mem_repeatedIds_iff (nodup_occurrences T text) hafter, hsnd]
  simp only [List.mem_map, exists_exists_and_eq_and]

/-- **Duplicates are reported exactly.** Take any text and any configuration that is in order. If
    duplicate names are to be reported, there is one such issue at the place of an attribute if one
    before it in its tag has the same name, letter case aside, and else none; there are as many as
    there are attributes beyond the different names of their tags. If duplicate ids are to be
    reported, there is one such issue at the place of an attribute if it gives an id and one before
    it, in its tag or an earlier one, gives the same id, and else none; there are as many as there
    are ids beyond the different ones. -/
theorem duplicates_reported_exactly (T : Tokenizer) (config : Config) (o : Options) (text : Bytes)
    (h : Options.ofConfig config = .ok o) :
    ∃ issues, T.lint config text false = .ok issues ∧
      (o.attrNoDup = true →
        (∀ earlier t before a, Occurs T text earlier t before a →
          reportsAt .attrNoDup ((Source.ofText text).place (t.offsetOf a)) issues =
            if ∃ b ∈ before, lowerName b = lowerName a then [nameIssue (.ofText text) (t, a)]
            else []) ∧
        (ofRule .attrNoDup issues).length = ((T.outline (.ofText text)).tags.map fun t =>
          t.attributes.length - (t.attributes.map lowerName).toFinset.card).sum) ∧
      (o.idNoDup = true →
        (∀ earlier t before a, Occurs T text earlier t before a →
          reportsAt .idNoDup ((Source.ofText text).place (t.offsetOf a)) issues =
            if isId a = true ∧ ∃ b ∈ earlier.flatMap Tag.attributes ++ before, isId b = true ∧
              valueOf b = valueOf a
            then [idIssue (.ofText text) (t, a)] else []) ∧
        (ofRule .idNoDup issues).length =
          (idValues T text).length - (idValues T text).toFinset.card) := by
  refine ⟨T.check o text, lint_eq_check h text, fun hnames => ⟨?_, ?_⟩, fun hids => ⟨?_, ?_⟩⟩
  · intro earlier t before a hoccurs
    rw [← if_congr hoccurs.mem_repeatedNames_iff rfl rfl]
    exact reportsAt_check (by decide) (checkTags_only_attrNoDup hnames _ _) (fun q => ⟨_, rfl⟩)
      (repeatedNames_sublist _) hoccurs.mem_occurrences
  · rw [ofRule_check (by decide), checkTags_only_attrNoDup hnames, List.length_mergeSort,
      List.length_map, length_repeatedNames]
  · intro earlier t before a hoccurs
    rw [← if_congr hoccurs.mem_repeatedIds_iff rfl rfl]
    exact reportsAt_check (by decide) (checkTags_only_idNoDup hids _ _) (fun q => ⟨_, rfl⟩)
      (repeatedIds_sublist _) hoccurs.mem_occurrences
  · rw [ofRule_check (by decide), checkTags_only_idNoDup hids, List.length_mergeSort,
      List.length_map, length_repeated, idValues_eq, List.length_map]

/-- A name that is there twice in a tag, and an id that is there three times, twice in one tag. -/
def thrice : Bytes := Bytes.ofString "<p id=a><p ID=a Id=a>"

/-- The second tag repeats the name and, with the first tag's, the id twice. -/
theorem duplicates_reported_exactly_thrice :
    ∃ first second, ∃ b c : Attribute, Occurs .html thrice [first] second [b] c ∧
    ∃ issues, lint [] thrice false = .ok issues ∧
      reportsAt .attrNoDup ((Source.ofText thrice).place (second.offsetOf c)) issues =
        [nameIssue (.ofText thrice) (second, c)] ∧
      reportsAt .idNoDup ((Source.ofText thrice).place (second.offsetOf c)) issues =
        [idIssue (.ofText thrice) (second, c)] ∧
      (ofRule .attrNoDup issues).length = 1 ∧ (ofRule .idNoDup issues).length = 2 := by
  have hoccurs : Occurs .html thrice
      [⟨Bytes.ofString "p", 0, [⟨Bytes.ofString "id", some (Bytes.ofString "a"), 3⟩]⟩]
      ⟨Bytes.ofString "p", 8, [⟨Bytes.ofString "ID", some (Bytes.ofString "a"), 3⟩,
        ⟨Bytes.ofString "Id", some (Bytes.ofString "a"), 8⟩]⟩
      [⟨Bytes.ofString "ID", some (Bytes.ofString "a"), 3⟩]
      ⟨Bytes.ofString "Id", some (Bytes.ofString "a"), 8⟩ :=
    ⟨[], [], by decide +kernel, rfl⟩
  obtain ⟨issues, hlint, hnames, hids⟩ :=
    duplicates_reported_exactly .html [] unconfigured thrice ofConfig_nil
  obtain ⟨hname, hnameCount⟩ := hnames rfl
  obtain ⟨hid, hidCount⟩ := hids rfl
  refine ⟨_, _, _, _, hoccurs, issues, hlint, ?_, ?_, ?_, ?_⟩
  · rw [hname _ _ _ _ hoccurs]
    decide +kernel
  · rw [hid _ _ _ _ hoccurs]
    decide +kernel
  · rw [hnameCount]
    decide +kernel
  · rw [hidCount]
    decide +kernel

end MarkupLint.Rule
