/-
  Empty lines in front of a document move its issues down and change nothing else.

  One newline is followed through linting. It stands in the text before the first markup, so that
  every tag stands one byte further on; every offset then lies one line further down and in the same
  column. A check of tags or attributes uses its offset for the places of its issues only
  (`Located`). The first line is empty, the verbatim lines move with the text, and issues that move
  down together keep their order. Any number of newlines is one newline after the other.
-/
import MarkupLint.Proofs.RuleIndependence
import MarkupLint.Proofs.VerbatimLines

namespace MarkupLint

/-- The issue `k` lines further down. -/
def Issue.down (k : Nat) (i : Issue) : Issue := { i with line := i.line + k }

theorem Issue.down_down (k l : Nat) (i : Issue) : (i.down k).down l = i.down (k + l) := by
  simp only [Issue.down, Int.natCast_add, Int.add_assoc]

namespace Markup

open Bytes Ascii

variable {text : Bytes} {offset n : Nat} {open? : Option Bytes} {lead ts : List Token}

/-! ## Places -/

/-- A newline in front makes an empty first line. -/
theorem splitAt_newline_cons (text : Bytes) :
    splitAt newline (newline :: text) = [] :: splitAt newline text := by
  simp [splitAt]

/-- Lines that begin one byte further on. -/
theorem startsFrom_add_one (base : Nat) (ls : List Bytes) :
    startsFrom (base + 1) ls = (startsFrom base ls).map (· + 1) := by
  induction ls generalizing base with
  | nil => rfl
  | cons l ls ih =>
    have hnext : base + 1 + l.length + 1 = base + l.length + 1 + 1 := by omega
    rw [startsFrom, startsFrom, List.map_cons, hnext, ih]

namespace Source

/-- Each offset counts one newline more before it. -/
theorem lineAt_newline_cons (h : offset ≤ text.length) :
    (ofText (newline :: text)).lineAt (offset + 1) = (ofText text).lineAt offset + 1 := by
  rw [lineAt_ofText h, lineAt_ofText (Nat.succ_le_succ h), List.take_succ_cons,
    List.count_cons_self]

/-- Behind a newline every offset lies one line further down, in the same column. -/
theorem place_newline_cons (h : offset ≤ text.length) :
    (ofText (newline :: text)).place (offset + 1) =
      { (ofText text).place offset with line := ((ofText text).place offset).line + 1 } := by
  -- the tables of lines and of their starts have one entry more in front
  have hlines : ∀ l : Nat, (ofText (newline :: text)).lines[l + 1]? = (ofText text).lines[l]? := by
    simp [ofText, splitAt_newline_cons]
  have hstarts : ∀ l : Nat,
      (ofText (newline :: text)).starts[l + 1]? = ((ofText text).starts[l]?).map (· + 1) := by
    simp [ofText, splitAt_newline_cons, startsFrom, startsFrom_add_one 0]
  obtain ⟨start, hstart⟩ :
      ∃ start, (ofText text).starts[(ofText text).lineAt offset]? = some start :=
    ⟨_, Array.getElem?_eq_getElem (lineAt_spec text offset).1⟩
  simp only [place, lineAt_newline_cons h, hlines, hstarts, hstart, Option.map_some,
    Option.getD_some, Nat.add_sub_add_right]

end Source

/-! ## Outline -/

/-- The tag one byte further on. -/
def Tag.next (t : Tag) : Tag := { t with offset := t.offset + 1 }

theorem Tag.offsetOf_next (t : Tag) (a : Attribute) : t.next.offsetOf a = t.offsetOf a + 1 :=
  Nat.add_right_comm t.offset 1 a.offset

/-- Tokens that begin one byte further on give tags that do. -/
theorem tagsFrom_add_one (offset : Nat) (ts : List Token) :
    tagsFrom (offset + 1) ts = (tagsFrom offset ts).map Tag.next := by
  induction ts generalizing offset with
  | nil => rfl
  | cons t ts ih =>
    rw [tagsFrom, tagsFrom, Nat.add_right_comm, ih, List.map_append]
    cases t.isTag <;> rfl

/-- Text is no tag. -/
theorem tagsFrom_text (h : ∀ t ∈ lead, t.kind = .text) (offset : Nat) (ts : List Token) :
    tagsFrom offset (lead ++ ts) = tagsFrom (offset + width lead) ts := by
  induction lead generalizing offset with
  | nil => rfl
  | cons t lead ih =>
    obtain ⟨ht, hlead⟩ := List.forall_mem_cons.mp h
    rw [List.cons_append, tagsFrom, ih hlead, width_cons, Nat.add_assoc]
    simp [Token.isTag, ht]

/-- Text outside of elements is not verbatim. -/
theorem verbatimFrom_text (s : Source) (h : ∀ t ∈ lead, t.kind = .text) (offset : Nat)
    (ts : List Token) :
    verbatimFrom s none offset (lead ++ ts) = verbatimFrom s none (offset + width lead) ts := by
  induction lead generalizing offset with
  | nil => rfl
  | cons t lead ih =>
    obtain ⟨ht, hlead⟩ := List.forall_mem_cons.mp h
    have hopen : t.openAfter none = none := by simp [Token.openAfter, ht]
    rw [List.cons_append, verbatimFrom, hopen, ih hlead, width_cons, Nat.add_assoc]
    simp [Token.isVerbatim, ht]

/-- The newline goes to the text in front of the first markup, and so the tags move by a byte. -/
theorem outline_tags_newline_cons (T : Tokenizer) (text : Bytes) :
    (T.outline (.ofText (newline :: text))).tags =
      (T.outline (.ofText text)).tags.map Tag.next := by
  obtain ⟨lead, lead', rest, htokens, hlonger, htext, hwidth⟩ := T.newline_cons text
  obtain ⟨hlead, hlead'⟩ := List.forall_mem_append.mp htext
  rw [outline_tags, outline_tags]
  show tagsFrom 0 (T.tokens (newline :: text)) = (tagsFrom 0 (T.tokens text)).map Tag.next
  -- both texts begin with text, the longer one by a byte, and go on with the same tokens
  rw [htokens, hlonger, tagsFrom_text hlead, tagsFrom_text hlead', hwidth, ← Nat.add_assoc,
    tagsFrom_add_one]

/-- The lines of a piece that moves with the text. -/
theorem linesBegunIn_newline_cons (h : offset + n ≤ text.length) :
    OutlineState.linesBegunIn (.ofText (newline :: text)) (offset + 1) n =
      (OutlineState.linesBegunIn (.ofText text) offset n).map (· + 1) := by
  have hlast : max (offset + 1 + n - 1) (offset + 1) = max (offset + n - 1) offset + 1 := by omega
  have hle : max (offset + n - 1) offset ≤ text.length := by omega
  have hfirst : offset ≤ text.length := by omega
  simp only [OutlineState.linesBegunIn, hlast, Source.lineAt_newline_cons hle,
    Source.lineAt_newline_cons hfirst, Nat.add_sub_add_right, List.map_reverse]
  rw [Nat.add_comm _ 1, ← List.map_add_range']
  simp only [Nat.add_comm 1]

/-- Verbatim lines move down with the tokens that they begin in. -/
theorem verbatimFrom_newline_cons (h : offset + width ts ≤ text.length) :
    verbatimFrom (.ofText (newline :: text)) open? (offset + 1) ts =
      (verbatimFrom (.ofText text) open? offset ts).map (· + 1) := by
  induction ts generalizing offset open? with
  | nil => rfl
  | cons t ts ih =>
    -- a token ends in the text, and so the lines that begin in it can be told
    rw [width_cons, ← Nat.add_assoc] at h
    have hfirst : offset + t.raw.length ≤ text.length := Nat.le_trans (Nat.le_add_right _ _) h
    rw [verbatimFrom, verbatimFrom, Nat.add_right_comm, ih h, linesBegunIn_newline_cons hfirst,
      List.map_append]
    cases t.isVerbatim open? <;> simp

/-- Tokens that are cut from a text take no more bytes than it has. -/
theorem Cut.width_le {s : Bytes} (h : Cut s ts) : width ts ≤ s.length := by
  induction h with
  | nil s => exact Nat.zero_le _
  | cons t r ts htag hrest ih =>
    rw [width_cons, List.length_append]
    exact Nat.add_le_add_left ih _

/-- Verbatim lines are one line further down. -/
theorem outline_verbatim_newline_cons (T : Tokenizer) (text : Bytes) :
    (T.outline (.ofText (newline :: text))).verbatim =
      (T.outline (.ofText text)).verbatim.map (· + 1) := by
  obtain ⟨lead, lead', rest, htokens, hlonger, htext, hwidth⟩ := T.newline_cons text
  obtain ⟨hlead, hlead'⟩ := List.forall_mem_append.mp htext
  have hle : 0 + width lead + width rest ≤ text.length := by
    have hcut := (T.cut text).width_le
    rwa [htokens, width_append, ← Nat.zero_add (width lead)] at hcut
  rw [outline_verbatim, outline_verbatim]
  show verbatimFrom _ none 0 (T.tokens (newline :: text)) =
    (verbatimFrom _ none 0 (T.tokens text)).map (· + 1)
  rw [htokens, hlonger, verbatimFrom_text _ hlead, verbatimFrom_text _ hlead', hwidth,
    ← Nat.add_assoc, verbatimFrom_newline_cons hle]

end Markup

namespace Rule

open Markup Bytes

variable {text : Bytes} {offset : Nat} {o : Options} {a : Attribute} {t : Tag} {seen : Seen}
  {f g : Source → Nat → List Issue}

/-! ## Checks of tags -/

/-- The issue at another place. -/
def placedAt (p : Place) (i : Issue) : Issue := { i with line := p.line, column := p.column }

/-- The check uses the document and the offset for the places of its issues only. -/
def Located (f : Source → Nat → List Issue) : Prop :=
  ∃ found : List Issue, ∀ s offset, f s offset = found.map (placedAt (s.place offset))

theorem located_nil : Located fun _ _ => [] := ⟨[], fun _ _ => rfl⟩

/-- Checks that report at one place what they have found. -/
theorem located_map {α : Type} (xs : List α) (code rule : String) (data : α → IssueData) :
    Located fun s offset => xs.map fun x => issueAt s offset code rule (data x) :=
  ⟨xs.map fun x => { code, rule, data := data x }, fun _ _ => by rw [List.map_map]; rfl⟩

theorem located_singleton (code rule : String) (data : IssueData) :
    Located fun s offset => [issueAt s offset code rule data] :=
  located_map [data] code rule id

/-- Such checks may depend on anything but the place. -/
theorem located_ite {p : Prop} [Decidable p] (hf : Located f) (hg : Located g) :
    Located fun s offset => if p then f s offset else g s offset := by
  by_cases h : p
  · simpa only [if_pos h] using hf
  · simpa only [if_neg h] using hg

theorem Located.append (hf : Located f) (hg : Located g) :
    Located fun s offset => f s offset ++ g s offset := by
  obtain ⟨found, hf⟩ := hf
  obtain ⟨more, hg⟩ := hg
  refine ⟨found ++ more, fun s offset => ?_⟩
  show f s offset ++ g s offset = _
  rw [hf, hg, List.map_append]

/-- The issues of such a check move down with the place at which it stands. -/
theorem Located.newline_cons (hf : Located f) (h : offset ≤ text.length) :
    f (.ofText (newline :: text)) (offset + 1) = (f (.ofText text) offset).map (Issue.down 1) := by
  obtain ⟨found, hf⟩ := hf
  rw [hf, hf, List.map_map, Source.place_newline_cons h]
  rfl

theorem located_checkNameStyle (o : Options) (a : Attribute) :
    Located fun s offset => checkNameStyle s o offset a := by
  unfold checkNameStyle
  cases o.attrNameStyle with
  | none => exact located_nil
  | some style => exact located_ite located_nil (located_singleton _ _ _)

theorem located_checkValueStyle (o : Options) (a : Attribute) :
    Located fun s offset => checkValueStyle s o offset a := by
  unfold checkValueStyle
  split
  · exact located_ite (located_map _ _ _ _) located_nil
  · exact located_nil

/-- All checks of an attribute are of this kind. -/
theorem located_checkAttribute (o : Options) (seen : Seen) (a : Attribute) :
    Located fun s offset => checkAttribute s o seen offset a := by
  have hban : Located fun s offset => checkBan s o offset a :=
    located_ite (located_singleton _ _ _) located_nil
  have hdup : Located fun s offset => checkDuplicate s o seen.names offset a :=
    located_ite (located_singleton _ _ _) located_nil
  have hid : Located fun s offset => checkId s o seen.ids offset a :=
    located_ite (located_singleton _ _ _) located_nil
  exact (((hban.append (located_checkNameStyle o a)).append hdup).append
    (located_checkValueStyle o a)).append hid

/-- The issues of a tag's attributes move down. -/
theorem checkAttributes_newline_cons {as : List Attribute}
    (h : ∀ a ∈ as, t.offsetOf a ≤ text.length) :
    (checkAttributes (.ofText (newline :: text)) o t.next seen as).1 =
      (checkAttributes (.ofText text) o t seen as).1.map (Issue.down 1) := by
  induction as generalizing seen with
  | nil => rfl
  | cons a as ih =>
    obtain ⟨ha, has⟩ := List.forall_mem_cons.mp h
    simp only [checkAttributes, Tag.offsetOf_next,
      (located_checkAttribute o seen a).newline_cons ha, ih has, List.map_append]

/-- A tag and its attributes move together, so as many of these are on its first line. -/
theorem onFirstLine_newline_cons (ht : t.offset ≤ text.length)
    (h : ∀ a ∈ t.attributes, t.offsetOf a ≤ text.length) :
    onFirstLine (.ofText (newline :: text)) t.next = onFirstLine (.ofText text) t := by
  refine List.countP_congr fun a ha => ?_
  rw [Tag.offsetOf_next, Source.lineAt_newline_cons (h a ha)]
  show (_ == (Source.ofText (newline :: text)).lineAt (t.offset + 1)) = true ↔ _
  rw [Source.lineAt_newline_cons ht]
  simp

/-- The check for that moves its issue with the tag. -/
theorem checkNewLine_newline_cons (ht : t.offset ≤ text.length)
    (h : ∀ a ∈ t.attributes, t.offsetOf a ≤ text.length) :
    checkNewLine (.ofText (newline :: text)) o t.next =
      (checkNewLine (.ofText text) o t).map (Issue.down 1) := by
  unfold checkNewLine
  rw [onFirstLine_newline_cons ht h]
  split
  · exact (located_singleton _ _ _).newline_cons ht
  · rfl

/-- The issues of all tags move down, tag by tag. -/
theorem checkTags_newline_cons {ts : List Tag} (h : ∀ t ∈ ts, t.StandsIn text text.length)
    (ids : List Bytes) :
    checkTags (.ofText (newline :: text)) o ids (ts.map Tag.next) =
      (checkTags (.ofText text) o ids ts).map (Issue.down 1) := by
  induction ts generalizing ids with
  | nil => rfl
  | cons t ts ih =>
    obtain ⟨ht, hts⟩ := List.forall_mem_cons.mp h
    have hattributes : ∀ a ∈ t.attributes, t.offsetOf a ≤ text.length :=
      fun a ha => Nat.le_of_lt (ht.attributes_in a ha).2.offset_lt
    have hsame : t.next.attributes = t.attributes := rfl
    simp only [List.map_cons, checkTags, hsame, checkAttributes_newline_cons hattributes,
      checkAttributes_seen, checkNewLine_newline_cons (Nat.le_of_lt ht.offset_lt) hattributes,
      ih hts, List.map_append]

/-! ## Lines -/

/-- A line is checked alike wherever it stands. -/
theorem checkIndent_add_one (o : Options) (verbatim : List Nat) (number : Nat) (l : Bytes) :
    checkIndent o (verbatim.map (· + 1)) (number + 1) l =
      (checkIndent o verbatim number l).map (Issue.down 1) := by
  have hmem : (verbatim.map (· + 1)).contains (number + 1) = verbatim.contains number := by
    simp
  simp only [checkIndent, hmem]
  split <;> rfl

theorem checkLines_add_one (o : Options) (verbatim : List Nat) (number : Nat) (ls : List Bytes) :
    checkLines o (verbatim.map (· + 1)) (number + 1) ls =
      (checkLines o verbatim number ls).map (Issue.down 1) := by
  induction ls generalizing number with
  | nil => rfl
  | cons l ls ih => rw [checkLines, checkLines, checkIndent_add_one, ih, List.map_append]

/-- An empty line is not reported. -/
theorem checkIndent_nil (o : Options) (verbatim : List Nat) (number : Nat) :
    checkIndent o verbatim number [] = [] := by
  simp [checkIndent, indentOf]

/-! ## Documents -/

/-- Moving issues down together keeps their order. -/
theorem notAfter_down (k : Nat) (a b : Issue) : notAfter (a.down k) (b.down k) = notAfter a b := by
  rw [Bool.eq_iff_iff, notAfter_iff, notAfter_iff]
  simp only [Issue.down]
  omega

/-- **One newline** in front of a document moves its issues down by one line. -/
theorem check_newline_cons (T : Tokenizer) (o : Options) (text : Bytes) :
    T.check o (newline :: text) = (T.check o text).map (Issue.down 1) := by
  have hlines : (Source.ofText (newline :: text)).lines.toList =
      [] :: (Source.ofText text).lines.toList := by
    simp [Source.ofText, splitAt_newline_cons]
  have hstands : ∀ t ∈ (T.outline (.ofText text)).tags, t.StandsIn text text.length := by
    intro t ht
    obtain ⟨raw, hread⟩ := (outline_in_order T text).1 t ht
    exact hread.standsIn.mono hread.length_le
  have hfound : (if o.indentWidth = 0 then [] else
        checkLines o (T.outline (.ofText (newline :: text))).verbatim 0
          (Source.ofText (newline :: text)).lines.toList) =
      (if o.indentWidth = 0 then [] else
        checkLines o (T.outline (.ofText text)).verbatim 0 (Source.ofText text).lines.toList).map
          (Issue.down 1) := by
    rw [hlines, outline_verbatim_newline_cons, checkLines, checkIndent_nil, List.nil_append,
      checkLines_add_one]
    split <;> rfl
  -- lines and tags are reported one line further down each, and sorted as before
  simp only [Tokenizer.check, checkWith]
  rw [hfound, outline_tags_newline_cons, checkTags_newline_cons hstands, ← List.map_append]
  exact (List.map_mergeSort fun a _ b _ => (notAfter_down 1 a b).symm).symm

/-- One newline after the other. -/
theorem check_replicate_newline (T : Tokenizer) (o : Options) (text : Bytes) (k : Nat) :
    T.check o (List.replicate k newline ++ text) = (T.check o text).map (Issue.down k) := by
  induction k with
  | zero => exact (List.map_id'' (fun i => by simp [Issue.down]) _).symm
  | succ k ih =>
    rw [List.replicate_succ, List.cons_append, check_newline_cons, ih, List.map_map]
    exact List.map_congr_left fun i _ => i.down_down k 1

/-- **Empty lines in front of a document move its issues down.** Whatever the configuration and the
    document, with `k` newlines in front of the document linting fails where it failed before, with
    the same error, and otherwise gives the same issues in the same order, `k` lines further
    down. -/
theorem lint_leading_newlines (T : Tokenizer) (config : Config) (text : Bytes) (k : Nat)
    (canceled : Bool) :
    T.lint config (List.replicate k newline ++ text) canceled =
      (T.lint config text canceled).map (List.map (Issue.down k)) := by
  unfold Tokenizer.lint lintWith
  cases Options.ofConfig config with
  | error e => rfl
  | ok o =>
    cases canceled with
    | true => rfl
    | false => exact congrArg Except.ok (check_replicate_newline T o text k)

end Rule
end MarkupLint
