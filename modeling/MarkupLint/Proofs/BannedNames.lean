/-
  The rule on banned attributes, and letter case.

  The name in the document is put into lower case before it is looked for in the list, and the list
  is taken as it is. So a name is matched however the document writes it, but an entry of the list
  is matched only as it is written: one that has an upper-case letter is matched by no name at all.
  Matching is free of letter case on both sides just for those lists that hold the lower-case form
  of each of their entries (`ignoresCase_iff`), as the default list does. That no other list will do
  is shown by a document of one tag, which has the entry as its attribute (`tagWith`).
-/
import MarkupLint.Proofs.DelimitedAttributes
import MarkupLint.Proofs.Duplicates
import MarkupLint.Proofs.OptionKinds
import MarkupLint.Proofs.WrittenTags

namespace MarkupLint

/-! ## The list -/

namespace Options

/-- The value of the option gives this list: none, `null` and `true` the default list, a single name
    a list of one. -/
inductive GivesBans : Option ConfigValue → List String → Prop where
  | missing : GivesBans none defaultBans
  | null : GivesBans (some .null) defaultBans
  | on : GivesBans (some (.bool true)) defaultBans
  | name (s : String) : GivesBans (some (.text s)) [s]
  | texts (ss : List String) : GivesBans (some (.texts ss)) ss
  | list (ss : List String) : GivesBans (some (.list (ss.map .text))) ss

/-- Each of these values is read as its list. -/
theorem attrBans_of_givesBans {config : Config} {o : Options} {bans : List String}
    (h : ofConfig config = .ok o) (hbans : GivesBans (config.get? RuleName.attrBans.key) bans) :
    o.attrBans = some bans := by
  obtain ⟨hoption, -⟩ := ofConfig_eq_ok.mp h
  rw [option_eq_ok_iff] at hoption
  generalize config.get? RuleName.attrBans.key = value at hbans hoption
  cases hbans with
  | list ss => simpa [names?, textsOf?_eq_some_iff.mpr rfl, eq_comm] using hoption
  | _ => simpa [names?, eq_comm] using hoption

end Options

namespace Rule

open Ascii Markup

variable {T : Tokenizer} {s : Source} {o : Options} {text : Bytes} {t : Tag} {a : Attribute}
  {bans : List String}

/-! ## The issues of the rule -/

/-- The issue on a banned attribute. -/
def banIssue (s : Source) (p : Tag × Attribute) : Issue :=
  issueAt s (offsetIn p) "E001" "attr-bans" { attr := p.2.name.toText }

/-- The attributes whose names, in lower case, are in the list. -/
def bannedAmong (bans : List String) (ps : List (Tag × Attribute)) : List (Tag × Attribute) :=
  ps.filter fun p => lowerName p.2 ∈ bans

/-- With the other rules turned off, the issues of an attribute are those of the rule on banned
    ones. -/
theorem checkAttribute_only_attrBans (h : o.attrBans = some bans) (seen : Seen) (t : Tag)
    (a : Attribute) :
    checkAttribute s (o.only .attrBans) seen (t.offsetOf a) a =
      if lowerName a ∈ bans then [banIssue s (t, a)] else [] := by
  -- four of the five checks are governed by rules that are off
  rw [checkAttribute, (governedBy_checkNameStyle s _ a).other o .attrBans (by decide),
    (governedBy_checkDuplicate s _ a seen.names).other o .attrBans (by decide),
    (governedBy_checkValueStyle s _ a).other o .attrBans (by decide),
    (governedBy_checkId s _ a seen.ids).other o .attrBans (by decide),
    (governedBy_checkBan s _ a).own o]
  simp [checkBan, h, banIssue, offsetIn]

/-- Tag by tag, what the earlier attributes leave behind does not count for this rule. -/
theorem checkAttributes_only_attrBans (h : o.attrBans = some bans) (t : Tag) (seen : Seen)
    (as : List Attribute) :
    (checkAttributes s (o.only .attrBans) t seen as).1 =
      (bannedAmong bans (as.map fun a => (t, a))).map (banIssue s) := by
  induction as generalizing seen with
  | nil => rfl
  | cons a as ih =>
    show checkAttribute s (o.only .attrBans) seen (t.offsetOf a) a ++
      (checkAttributes s (o.only .attrBans) t (seen.after a) as).1 = _
    rw [checkAttribute_only_attrBans h, ih]
    by_cases hbanned : lowerName a ∈ bans
    · simp [bannedAmong, hbanned]
    · simp [bannedAmong, hbanned]

/-- The issues of the rule are those on the banned attributes, in the order of the text. -/
theorem checkTags_only_attrBans (h : o.attrBans = some bans) (ids : List Bytes) (ts : List Tag) :
    checkTags s (o.only .attrBans) ids ts =
      (bannedAmong bans (occurrences ts)).map (banIssue s) := by
  induction ts generalizing ids with
  | nil => rfl
  | cons t ts ih =>
    have hsplit : bannedAmong bans (occurrences (t :: ts)) =
        bannedAmong bans (t.attributes.map fun a => (t, a)) ++
          bannedAmong bans (occurrences ts) := by
      simp [bannedAmong, occurrences]
    -- the ids seen so far are carried along, and it does not matter which they are
    show (checkAttributes s (o.only .attrBans) t ⟨[], ids⟩ t.attributes).1 ++
      checkNewLine s (o.only .attrBans) t ++ checkTags s (o.only .attrBans) _ ts = _
    rw [checkAttributes_only_attrBans h,
      (governedBy_checkNewLine s t).other o .attrBans (by decide), ih, List.append_nil, hsplit,
      List.map_append]

/-- There is an issue at the place of an attribute just when its name, in lower case, is in the
    list. -/
theorem reportsAt_attrBans (h : o.attrBans = some bans)
    (hp : (t, a) ∈ occurrences (T.outline (.ofText text)).tags) :
    reportsAt .attrBans ((Source.ofText text).place (t.offsetOf a)) (T.check o text) =
      if lowerName a ∈ bans then [banIssue (.ofText text) (t, a)] else [] := by
  have hreports := reportsAt_check (by decide) (checkTags_only_attrBans (s := .ofText text) h [] _)
    (fun q => ⟨_, rfl⟩) List.filter_sublist hp
  have hmem : (t, a) ∈ bannedAmong bans (occurrences (T.outline (.ofText text)).tags) ↔
      lowerName a ∈ bans := by
    simp [bannedAmong, hp]
  rw [← if_congr hmem rfl rfl]
  exact hreports

/-! ## ASCII names -/

/-- ASCII bytes are read one by one, as the characters of those numbers. -/
theorem mem_chars_of_ascii {name : Bytes} (h : ∀ b ∈ name, b < 0x80) {c : Char}
    (hc : c ∈ Utf8.chars name) :
    ∃ n < 128, c = Char.ofNat n := by
  induction name with
  | nil => exact absurd hc List.not_mem_nil
  | cons b r ih =>
    have hb := h b List.mem_cons_self
    rw [Utf8.chars_cons_ascii hb] at hc
    rcases List.mem_cons.mp hc with rfl | hc
    · exact ⟨b.toNat, UInt8.lt_iff_toNat_lt.mp hb, rfl⟩
    · exact ih (fun d hd => h d (List.mem_cons_of_mem _ hd)) hc

theorem toList_toLower (x : String) : x.toLower.toList = x.toList.map Char.toLower :=
  String.toList_map

/-- On ASCII both ways of putting a character into lower case are the same. -/
theorem ofChar_of_ascii :
    ∀ n < 128, LowerCase.ofChar (Char.ofNat n) = (Char.ofNat n).toLower := by decide +kernel

theorem toLower_of_ascii :
    ∀ n < 128, (Char.ofNat n).toLower.toLower = (Char.ofNat n).toLower := by decide +kernel

/-- On ASCII names, lower case is that of the letters from `A` to `Z`. -/
theorem lowerName_of_ascii (h : ∀ b ∈ a.name, b < 0x80) : lowerName a = a.name.toText.toLower := by
  have hchars : (Utf8.chars a.name).map LowerCase.ofChar =
      (Utf8.chars a.name).map Char.toLower := by
    refine List.map_congr_left fun c hc => ?_
    obtain ⟨n, hn, rfl⟩ := mem_chars_of_ascii h hc
    exact ofChar_of_ascii n hn
  unfold lowerName LowerCase.ofBytes Bytes.toText
  rw [hchars]
  apply String.toList_inj.mp
  rw [toList_toLower, String.toList_ofList, String.toList_ofList]

/-- What is in lower case stays so. -/
theorem toLower_toLower_of_ascii {name : Bytes} (h : ∀ b ∈ name, b < 0x80) :
    name.toText.toLower.toLower = name.toText.toLower := by
  apply String.toList_inj.mp
  rw [toList_toLower, toList_toLower, Bytes.toText, String.toList_ofList, List.map_map]
  refine List.map_congr_left fun c hc => ?_
  obtain ⟨n, hn, rfl⟩ := mem_chars_of_ascii h hc
  exact toLower_of_ascii n hn

/-- A name that an attribute can have, of ASCII bytes only. -/
structure IsName (name : Bytes) : Prop where
  ne_nil : name ≠ []
  plain : ∀ b ∈ name, isAttributeByte b = true
  ascii : ∀ b ∈ name, b < 0x80


theorem isName_of_mem_occurrences (h : (t, a) ∈ occurrences (T.outline (.ofText text)).tags)
    (hascii : ∀ b ∈ a.name, b < 0x80) : IsName a.name := by
  obtain ⟨ht, ha⟩ := mem_occurrences.mp h
  obtain ⟨raw, hread⟩ := (outline_in_order T text).1 t ht
  have hraw : a ∈ attributes raw := hread.attributes_eq ▸ ha
  obtain ⟨hne, hplain⟩ := name_of_mem_attributesFrom hraw
  exact ⟨hne, hplain, hascii⟩

/-! ## A document with a given name -/

/-- Any tokenizer reads the attribute back from the document that was written for it. -/
theorem mem_occurrences_tagWith (T : Tokenizer) {name : Bytes} (h : IsName name) :
    ∃ t a, (t, a) ∈ occurrences (T.outline (.ofText (tagWith name))).tags ∧ a.name = name := by
  have hall : name.all isAttributeByte = true := List.all_eq_true.mpr h.plain
  have hattributes : attributes (tagWith name) = [⟨name, none, 3⟩] := by
    have hp : ∀ b ∈ [(112 : UInt8)], isNameByte b = true := List.all_eq_true.mp rfl
    have hspace : ∀ b ∈ (32 :: (name ++ [greaterThan])).head?, isNameByte b = false := by
      intro b hb
      obtain rfl := Option.some.inj hb
      decide
    have htail : ∀ b ∈ ([] : Bytes), isSeparator b = true := nofun
    -- one attribute without a value, after one space
    have hread := attributesFrom_render (n := 2) htail [spaced name none h.ne_nil hall] rfl
    rw [attributes]
    show attributesFrom (Cursor.past isNameByte ⟨1, [112] ++ 32 :: (name ++ [greaterThan])⟩) = _
    rw [(Cursor.past_run hp hspace).1]
    simpa [renderAll, spaced, WrittenAttribute.render, WrittenAttribute.valueText,
      WrittenAttribute.value?] using hread
  obtain ⟨kind, hkind, htokens⟩ := T.tag h.plain
  have htag : Token.isTag ⟨kind, tagWith name, Bytes.ofString "p"⟩ = true := by
    rcases hkind with rfl | rfl <;> rfl
  refine ⟨⟨Bytes.ofString "p", 0, [⟨name, none, 3⟩]⟩, ⟨name, none, 3⟩, ?_, rfl⟩
  refine mem_occurrences.mpr ⟨?_, List.mem_cons_self⟩
  rw [outline_tags]
  show _ ∈ tagsFrom 0 (T.tokens (tagWith name))
  rw [htokens, tagsFrom, if_pos htag, hattributes]
  exact List.mem_cons_self

/-! ## Letter case -/

/-- The entry is, letter case aside, a name that an attribute can have. -/
def Writable (x : String) : Prop := ∃ name, IsName name ∧ x.toLower = name.toText.toLower

/-- The rule reports the attribute. -/
def ReportsBan (text : Bytes) (issues : List Issue) (t : Tag) (a : Attribute) : Prop :=
  reportsAt .attrBans ((Source.ofText text).place (t.offsetOf a)) issues ≠ []

/-- In the document, an ASCII name is reported just when it is an entry of the list, letter case
    aside. -/
def IgnoresCase (T : Tokenizer) (bans : List String) (text : Bytes) (issues : List Issue) : Prop :=
  ∀ t a, (t, a) ∈ occurrences (T.outline (.ofText text)).tags → (∀ b ∈ a.name, b < 0x80) →
    (ReportsBan text issues t a ↔ ∃ x ∈ bans, x.toLower = a.name.toText.toLower)

/-- An ASCII name is reported just when its lower-case form is in the list. -/
theorem reportsBan_iff (h : o.attrBans = some bans)
    (hp : (t, a) ∈ occurrences (T.outline (.ofText text)).tags) (hascii : ∀ b ∈ a.name, b < 0x80) :
    ReportsBan text (T.check o text) t a ↔ a.name.toText.toLower ∈ bans := by
  unfold ReportsBan
  rw [reportsAt_attrBans h hp, lowerName_of_ascii hascii]
  split <;> simp [*]

/-- Letter case does not count in any document just when it does not count in the list. -/
theorem ignoresCase_iff (h : o.attrBans = some bans) :
    (∀ text, IgnoresCase T bans text (T.check o text)) ↔
      ∀ x ∈ bans, Writable x → x.toLower ∈ bans := by
  constructor
  · rintro hignores x hx ⟨name, hname, hlower⟩
    -- the document that has the entry as its attribute
    obtain ⟨t, a, hp, rfl⟩ := mem_occurrences_tagWith T hname
    rw [hlower, ← reportsBan_iff h hp hname.ascii, hignores _ t a hp hname.ascii]
    exact ⟨x, hx, hlower⟩
  · -- and where the list is closed under lower case, a name is compared with entries of its own
    -- case
    intro hlist text t a hp hascii
    rw [reportsBan_iff h hp hascii]
    constructor
    · intro hmem
      exact ⟨_, hmem, toLower_toLower_of_ascii hascii⟩
    · rintro ⟨x, hx, hlower⟩
      rw [← hlower]
      exact hlist x hx ⟨a.name, isName_of_mem_occurrences hp hascii, hlower⟩

/-- **Bans ignore letter case just where the list does.** Take any configuration that is in order
    and gives a list. In any text, there is one issue of the rule at the place of an attribute with
    an ASCII name if the lower-case form of the name is in the list, and else none. So the
    attributes reported are those whose names are in the list, letter case aside, in all texts just
    when the list holds the lower-case form of each entry that can be a name at all. -/
theorem bans_ignore_case_iff (T : Tokenizer) (config : Config) (o : Options) (bans : List String)
    (h : Options.ofConfig config = .ok o)
    (hbans : Options.GivesBans (config.get? RuleName.attrBans.key) bans) :
    (∀ text, ∃ issues, T.lint config text false = .ok issues ∧
      ∀ t a, (t, a) ∈ occurrences (T.outline (.ofText text)).tags → (∀ b ∈ a.name, b < 0x80) →
        reportsAt .attrBans ((Source.ofText text).place (t.offsetOf a)) issues =
          if a.name.toText.toLower ∈ bans then [banIssue (.ofText text) (t, a)] else []) ∧
    ((∀ text, ∃ issues, T.lint config text false = .ok issues ∧ IgnoresCase T bans text issues) ↔
      ∀ x ∈ bans, Writable x → x.toLower ∈ bans) := by
  have hlist := Options.attrBans_of_givesBans h hbans
  refine ⟨fun text => ⟨T.check o text, lint_eq_check h text, ?_⟩, ?_⟩
  · intro t a hp hascii
    rw [reportsAt_attrBans hlist hp, lowerName_of_ascii hascii]
  · rw [← ignoresCase_iff hlist]
    refine forall_congr' fun text => ?_
    constructor
    · rintro ⟨issues, hlint, hignores⟩
      rw [lint_eq_check h text] at hlint
      rw [Except.ok.inj hlint]
      exact hignores
    · intro hignores
      exact ⟨T.check o text, lint_eq_check h text, hignores⟩

/-- A banned name in mixed case. -/
def mixedCase : Bytes := Bytes.ofString "<p Style=x>"

/-- Without a configuration the default list is in force, which is in lower case. -/
theorem bans_ignore_case_iff_default :
    ∃ issues, lint [] mixedCase false = .ok issues ∧
      IgnoresCase .html Options.defaultBans mixedCase issues ∧
    ∃ t a, (t, a) ∈ occurrences (outline (.ofText mixedCase)).tags ∧
      reportsAt .attrBans ((Source.ofText mixedCase).place (t.offsetOf a)) issues =
        [banIssue (.ofText mixedCase) (t, a)] := by
  obtain ⟨hreports, hignores⟩ :=
    bans_ignore_case_iff .html [] unconfigured Options.defaultBans ofConfig_nil .missing
  have hlower : ∀ x ∈ Options.defaultBans, x.toLower = x := by decide +kernel
  obtain ⟨issues, hlint, hcase⟩ := hignores.mpr (fun x hx _ => (hlower x hx).symm ▸ hx) mixedCase
  refine ⟨issues, hlint, hcase,
    ⟨Bytes.ofString "p", 0, [⟨Bytes.ofString "Style", some (Bytes.ofString "x"), 3⟩]⟩,
    ⟨Bytes.ofString "Style", some (Bytes.ofString "x"), 3⟩, by decide +kernel, ?_⟩
  -- both parts speak of the same issues
  obtain ⟨issues', hlint', hreport⟩ := hreports mixedCase
  rw [hlint] at hlint'
  rw [Except.ok.inj hlint', hreport _ _ (by decide +kernel) (by decide +kernel),
    if_pos (by decide +kernel)]

/-- A list of one entry, in upper case. -/
def upperBans : Config := [(RuleName.attrBans.key, .list [.text "STYLE"])]

def lowerCase : Bytes := Bytes.ofString "<p style=\"x\">"

/-- An entry in upper case is matched by no name, in whatever case. -/
theorem upper_case_ban_unmatched :
    Options.GivesBans (upperBans.get? RuleName.attrBans.key) ["STYLE"] ∧
    ∃ issues, lint upperBans lowerCase false = .ok issues ∧
      ∃ t a, (t, a) ∈ occurrences (outline (.ofText lowerCase)).tags ∧
        "STYLE".toLower = a.name.toText.toLower ∧ ¬ ReportsBan lowerCase issues t a := by
  have hoptions : Options.ofConfig upperBans =
      .ok { unconfigured with attrBans := some ["STYLE"] } := rfl
  have hoccurs : (⟨Bytes.ofString "p", 0, [⟨Bytes.ofString "style", some (Bytes.ofString "x"), 3⟩]⟩,
      ⟨Bytes.ofString "style", some (Bytes.ofString "x"), 3⟩) ∈
        occurrences (outline (.ofText lowerCase)).tags := by
    decide +kernel
  -- character by character
  have hsame : "STYLE".toLower = (Bytes.ofString "style").toText.toLower := by
    apply String.toList_inj.mp
    rw [toList_toLower, toList_toLower]
    decide +kernel
  refine ⟨.list ["STYLE"], _, lint_eq_check (T := .html) hoptions _, _, _, hoccurs, hsame,
    fun hreports => ?_⟩
  have hmem := (reportsBan_iff (T := .html) rfl hoccurs (by decide +kernel)).mp hreports
  rw [← hsame, List.mem_singleton] at hmem
  have hlist := congrArg String.toList hmem
  rw [toList_toLower] at hlist
  exact absurd hlist (by decide +kernel)

end Rule
end MarkupLint
