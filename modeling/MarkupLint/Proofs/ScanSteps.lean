/-
  The reader of attributes, one step at a time.

  A `Scan` is the reader stopped between two steps: its index `i`, the loop it is in, and what it
  has found. Some of the loops move a second index `j`, and `i` follows only when a value has been
  read. `next` is one step, with the guarded operations. A turn of the outer loop goes from one
  `head` to the next one, or to the end (`TurnTo`).

  `Inv` says by phase where the indices are, compared to the index `o` at the last head. All else
  follows from what a step makes of it (`Inv.next`): no step faults, no index leaves the text, and
  every turn gets on. That the steps end, and with what, comes from the loops over indices
  (`runs_start`).
-/
import Mathlib.Logic.Relation
import MarkupLint.Proofs.GuardedScan
import MarkupLint.Proofs.Lists

namespace MarkupLint.Guarded

open Ascii Markup

/-! ## Steps -/

/-- An attribute as the scan notes it down, with its place in the whole text. -/
structure Scanned where
  name : Bytes
  value : Option Bytes
  offset : Int
  deriving DecidableEq, Repr

namespace Scanned

/-- An attribute of a tag that stands at `base`. -/
def ofAttribute (base : Int) (a : Attribute) : Scanned := ⟨a.name, a.value, a.offsetFrom base⟩

/-- The list with one more attribute. One without a name is left out. -/
def addTo (found : List Scanned) (a : Scanned) : List Scanned :=
  if a.name.isEmpty then found else found ++ [a]

end Scanned

/-- The loop that a scan is in. -/
inductive Phase where
  /-- over the name of the tag -/
  | tagName
  /-- at the condition of the outer loop -/
  | head
  /-- over the separators before an attribute -/
  | gap
  /-- over the name of an attribute -/
  | name (start : Nat)
  /-- over the blanks behind a name, which may come before an `=` -/
  | blanks (a : Scanned) (j : Nat)
  /-- over the blanks behind an `=` -/
  | valueBlanks (a : Scanned) (j : Nat)
  /-- over a value up to its closing quote -/
  | quoted (a : Scanned) (mark : UInt8) (start j : Nat)
  /-- over a value without quotes -/
  | unquoted (a : Scanned) (start j : Nat)
  deriving DecidableEq, Repr

/-- The second index of the loop, if it has one. -/
def Phase.second? : Phase → Option Nat
  | .tagName | .head | .gap | .name _ => none
  | .blanks _ j | .valueBlanks _ j | .quoted _ _ _ j | .unquoted _ _ j => some j

/-- A scan between two steps. -/
structure Scan where
  i : Nat
  phase : Phase
  found : List Scanned
  deriving DecidableEq, Repr

namespace Scan

/-- Where a scan begins: behind the first byte of the tag, of which nobody asks whether it is
    there. -/
def start : Scan := ⟨1, .tagName, []⟩

/-- One step. The scan is over with the attributes on the left, or goes on as on the right. -/
def next (raw : Bytes) (base : Int) (s : Scan) : Except Fault (List Scanned ⊕ Scan) :=
  match s.phase with
  | .tagName => do
    if ← holdsAt raw isNameByte s.i then pure (.inr { s with i := s.i + 1 })
    else pure (.inr { s with phase := .head })
  | .head => if s.i < raw.length then pure (.inr { s with phase := .gap }) else pure (.inl s.found)
  | .gap => do
    if ← holdsAt raw isSeparator s.i then pure (.inr { s with i := s.i + 1 })
    else if ← holdsAt raw (· ≠ greaterThan) s.i then pure (.inr { s with phase := .name s.i })
    else pure (.inl s.found)
  | .name start => do
    if ← holdsAt raw isAttributeByte s.i then pure (.inr { s with i := s.i + 1 })
    else
      let name ← slice raw start s.i
      pure (.inr { s with phase := .blanks ⟨name, none, wrap64 (base + start)⟩ s.i })
  | .blanks a j => do
    if ← holdsAt raw isSpace j then pure (.inr { s with phase := .blanks a (j + 1) })
    else if ← holdsAt raw (· = equals) j then pure (.inr { s with phase := .valueBlanks a (j + 1) })
    else pure (.inr ⟨s.i, .head, a.addTo s.found⟩)
  | .valueBlanks a j => do
    if ← holdsAt raw isSpace j then pure (.inr { s with phase := .valueBlanks a (j + 1) })
    else if ← holdsAt raw (fun b => b = quote || b = apostrophe) j then
      let mark ← elementAt raw j
      pure (.inr { s with phase := .quoted a mark (j + 1) (j + 1) })
    else pure (.inr { s with phase := .unquoted a j j })
  | .quoted a mark start j => do
    if ← holdsAt raw (· != mark) j then pure (.inr { s with phase := .quoted a mark start (j + 1) })
    else
      let value ← slice raw start j
      pure (.inr ⟨if j < raw.length then j + 1 else j, .head,
        { a with value := some value }.addTo s.found⟩)
  | .unquoted a start j => do
    if ← holdsAt raw isUnquotedByte j then pure (.inr { s with phase := .unquoted a start (j + 1) })
    else
      let value ← slice raw start j
      pure (.inr ⟨j, .head, { a with value := some value }.addTo s.found⟩)

/-- One scan comes a step after the other. -/
def Step (raw : Bytes) (base : Int) (s t : Scan) : Prop := next raw base s = .ok (.inr t)

/-- One scan comes some steps after the other, or none. -/
abbrev Steps (raw : Bytes) (base : Int) : Scan → Scan → Prop :=
  Relation.ReflTransGen (Step raw base)

/-- The scan goes on without a fault until it is over with these attributes. -/
inductive Runs (raw : Bytes) (base : Int) : Scan → List Scanned → Prop where
  | stop {s found} (h : next raw base s = .ok (.inl found)) : Runs raw base s found
  | step {s t found} (h : Step raw base s t) (hrest : Runs raw base t found) : Runs raw base s found

/-- A turn of the outer loop: from a scan to the next head, or to the end of it all. -/
inductive TurnTo (raw : Bytes) (base : Int) : Scan → Option Scan → Prop where
  | exit {s found} (h : next raw base s = .ok (.inl found)) : TurnTo raw base s none
  | head {s t} (h : Step raw base s t) (hphase : t.phase = .head) : TurnTo raw base s (some t)
  | step {s t stop} (h : Step raw base s t) (hphase : t.phase ≠ .head)
      (hrest : TurnTo raw base t stop) : TurnTo raw base s stop

variable {raw : Bytes} {base : Int} {s t : Scan} {found : List Scanned}

/-- Steps can be put in front of a run. -/
theorem Runs.of_steps (hsteps : Steps raw base s t) (hruns : Runs raw base t found) :
    Runs raw base s found := by
  induction hsteps using Relation.ReflTransGen.head_induction_on with
  | refl => exact hruns
  | head hstep _ ih => exact .step hstep ih

/-- What a step leaves to do is a run as well: a step has one result. -/
theorem Runs.after_step (hruns : Runs raw base s found) (hstep : Step raw base s t) :
    Runs raw base t found := by
  cases hruns with
  | stop hstop => cases hstop.symm.trans hstep
  | step hnext hrest =>
    cases Except.ok.inj (hnext.symm.trans hstep)
    exact hrest

theorem Runs.after_steps (hruns : Runs raw base s found) (hsteps : Steps raw base s t) :
    Runs raw base t found := by
  induction hsteps with
  | refl => exact hruns
  | tail _ hstep ih => exact ih.after_step hstep

/-- A run has one end. -/
theorem Runs.unique {other : List Scanned} (hruns : Runs raw base s found)
    (hother : Runs raw base s other) : found = other := by
  induction hruns with
  | stop hstop =>
    cases hother with
    | stop hstop' => exact Sum.inl.inj (Except.ok.inj (hstop.symm.trans hstop'))
    | step hnext _ => cases hstop.symm.trans hnext
  | step hnext _ ih => exact ih (hother.after_step hnext)

/-- A run that ends has turns that end. -/
theorem Runs.exists_turnTo (hruns : Runs raw base s found) : ∃ stop, TurnTo raw base s stop := by
  induction hruns with
  | stop hstop => exact ⟨none, .exit hstop⟩
  | @step s t found hstep _ ih =>
    by_cases hphase : t.phase = .head
    · exact ⟨some t, .head hstep hphase⟩
    · obtain ⟨stop, hstop⟩ := ih
      exact ⟨stop, .step hstep hphase hstop⟩

/-! ## Where the indices are -/

/-- To ask about a byte never faults, since the index is compared with the length first. -/
theorem holdsAt_eq (raw : Bytes) (p : UInt8 → Bool) (i : Nat) :
    holdsAt raw p i = .ok (raw[i]?.any p) := by
  unfold holdsAt
  cases hi : raw[i]? with
  | none =>
    have hle : raw.length ≤ i := List.getElem?_eq_none_iff.mp hi
    rw [if_neg (Nat.not_lt.mpr hle)]
    rfl
  | some b =>
    have hlt : i < raw.length := (List.getElem?_eq_some_iff.mp hi).1
    rw [if_pos hlt, elementAt_of_some hi]
    rfl

/-- Where a byte is found to be of some kind, there is a byte. -/
theorem exists_of_any {p : UInt8 → Bool} {i : Nat} (h : raw[i]?.any p = true) :
    ∃ b, raw[i]? = some b ∧ p b = true ∧ i < raw.length := by
  obtain ⟨b, hb, hp⟩ := (Option.any_eq_true p _).mp h
  exact ⟨b, hb, hp, (List.getElem?_eq_some_iff.mp hb).1⟩

/-- At the index there is a byte that a turn does not pass over as a separator and does not end
    at. -/
def BeginsName (raw : Bytes) (i : Nat) : Prop :=
  raw[i]?.any isSeparator = false ∧ raw[i]?.any (· ≠ greaterThan) = true

/-- Such a byte is one of a name, or it is the `=` of a value without a name. -/
theorem BeginsName.cases {i : Nat} (h : BeginsName raw i) :
    raw[i]?.any isAttributeByte = true ∨ raw[i]? = some equals := by
  obtain ⟨hseparator, hend⟩ := h
  obtain ⟨b, hb, hgt, -⟩ := exists_of_any hend
  rw [hb] at hseparator ⊢
  by_cases heq : b = equals
  · exact .inr (by rw [heq])
  · refine .inl ?_
    simp only [Option.any_some, isSeparator, Bool.or_eq_false_iff, decide_eq_false_iff_not,
      decide_eq_true_eq, isAttributeByte] at hseparator hgt ⊢
    simp [hseparator, hgt, heq]

/-- Where the indices are in each loop, when the outer loop was last at the index `o`. -/
def Inv (raw : Bytes) (o : Nat) (s : Scan) : Prop :=
  match s.phase with
  | .tagName | .head => o < s.i ∧ s.i ≤ max raw.length 1
  | .gap => o ≤ s.i ∧ s.i ≤ raw.length
  | .name start => o ≤ start ∧ start ≤ s.i ∧ s.i ≤ raw.length ∧ BeginsName raw start
  -- an empty name leaves `i` where it was, and then only an `=` can move it
  | .blanks _ j => s.i ≤ j ∧ j ≤ raw.length ∧ (o < s.i ∨ o ≤ s.i ∧ j = s.i ∧ raw[j]? = some equals)
  | .valueBlanks _ j => s.i ≤ j ∧ o < j ∧ j ≤ raw.length
  | .quoted _ _ start j | .unquoted _ start j => s.i ≤ j ∧ o < j ∧ start ≤ j ∧ j ≤ raw.length

/-- The index at the last head, for a scan that comes after `s`. -/
def lastHead (o : Nat) (s : Scan) : Nat :=
  match s.phase with
  | .head => s.i
  | _ => o

theorem lastHead_of_ne {o : Nat} (hphase : s.phase ≠ .head) : s.lastHead o = o := by
  unfold lastHead
  split
  · contradiction
  · rfl

/-- A result of a step: not a fault, and a scan whose indices are where they should be. -/
inductive Leads (raw : Bytes) (o : Nat) : Except Fault (List Scanned ⊕ Scan) → Prop where
  | ends (found : List Scanned) : Leads raw o (.ok (.inl found))
  | goesOn {t : Scan} (h : Inv raw o t) : Leads raw o (.ok (.inr t))

section Phases

variable {o i j first : Nat} {a : Scanned}

/-- One lemma for each loop. The byte that a step looks at decides whether the index goes on. -/
theorem leads_tagName (h : o < i ∧ i ≤ max raw.length 1) :
    Leads raw o (next raw base ⟨i, .tagName, found⟩) := by
  simp only [next, holdsAt_eq, ok_bind]
  cases hbyte : raw[i]?.any isNameByte with
  | true =>
    obtain ⟨-, -, -, hlt⟩ := exists_of_any hbyte
    exact .goesOn (show o < i + 1 ∧ i + 1 ≤ max raw.length 1 by omega)
  | false => exact .goesOn h

/-- The outer loop takes note of the index at which it turns. -/
theorem leads_head : Leads raw i (next raw base ⟨i, .head, found⟩) := by
  simp only [next]
  split
  · rename_i hlt
    exact .goesOn ⟨Nat.le_refl i, Nat.le_of_lt hlt⟩
  · exact .ends found

theorem leads_gap (h : o ≤ i ∧ i ≤ raw.length) : Leads raw o (next raw base ⟨i, .gap, found⟩) := by
  simp only [next, holdsAt_eq, ok_bind]
  cases hseparator : raw[i]?.any isSeparator with
  | true =>
    obtain ⟨-, -, -, hlt⟩ := exists_of_any hseparator
    exact .goesOn (show o ≤ i + 1 ∧ i + 1 ≤ raw.length by omega)
  | false =>
    cases hend : raw[i]?.any (· ≠ greaterThan) with
    | true => exact .goesOn ⟨h.1, Nat.le_refl i, h.2, hseparator, hend⟩
    | false => exact .ends found

/-- A name that stays empty began at an `=`. -/
theorem leads_name (h : o ≤ first ∧ first ≤ i ∧ i ≤ raw.length ∧ BeginsName raw first) :
    Leads raw o (next raw base ⟨i, .name first, found⟩) := by
  obtain ⟨hlow, hle, hhigh, hbegins⟩ := h
  simp only [next, holdsAt_eq, ok_bind]
  cases hbyte : raw[i]?.any isAttributeByte with
  | true =>
    obtain ⟨-, -, -, hlt⟩ := exists_of_any hbyte
    exact .goesOn ⟨hlow, Nat.le_succ_of_le hle, hlt, hbegins⟩
  | false =>
    simp only [Bool.false_eq_true, if_false, slice_of_le hle hhigh, ok_bind]
    refine .goesOn ⟨Nat.le_refl i, hhigh, ?_⟩
    show o < i ∨ o ≤ i ∧ i = i ∧ raw[i]? = some equals
    -- the name has a byte, or it began at the very byte that ends it
    obtain hlt | rfl := Nat.lt_or_eq_of_le hle
    · exact .inl (by omega)
    · obtain hname | hequals := hbegins.cases
      · rw [hbyte] at hname
        cases hname
      · exact .inr ⟨hlow, rfl, hequals⟩

/-- Without a name the index has not moved, but then there is an `=`, and it will. -/
theorem leads_blanks
    (h : i ≤ j ∧ j ≤ raw.length ∧ (o < i ∨ o ≤ i ∧ j = i ∧ raw[j]? = some equals)) :
    Leads raw o (next raw base ⟨i, .blanks a j, found⟩) := by
  obtain ⟨hle, hhigh, hfrom⟩ := h
  simp only [next, holdsAt_eq, ok_bind]
  cases hblank : raw[j]?.any isSpace with
  | true =>
    obtain ⟨b, hb, hspace, hlt⟩ := exists_of_any hblank
    have hnamed : o < i := by
      obtain hlow | ⟨-, -, hequals⟩ := hfrom
      · exact hlow
      · -- an `=` is no blank
        rw [Option.some.inj (hb.symm.trans hequals)] at hspace
        exact absurd hspace (by decide)
    exact .goesOn ⟨Nat.le_succ_of_le hle, hlt, .inl hnamed⟩
  | false =>
    cases hequals : raw[j]?.any (· = equals) with
    | true =>
      obtain ⟨-, -, -, hlt⟩ := exists_of_any hequals
      exact .goesOn (show i ≤ j + 1 ∧ o < j + 1 ∧ j + 1 ≤ raw.length by omega)
    | false =>
      -- there is no `=`, so there was a name
      obtain hlow | ⟨-, -, hb⟩ := hfrom
      · exact .goesOn (show o < i ∧ i ≤ max raw.length 1 by omega)
      · simp [hb] at hequals

/-- From here on the second index is behind the last head. -/
theorem leads_valueBlanks (h : i ≤ j ∧ o < j ∧ j ≤ raw.length) :
    Leads raw o (next raw base ⟨i, .valueBlanks a j, found⟩) := by
  simp only [next, holdsAt_eq, ok_bind]
  cases hblank : raw[j]?.any isSpace with
  | true =>
    obtain ⟨-, -, -, hlt⟩ := exists_of_any hblank
    exact .goesOn (show i ≤ j + 1 ∧ o < j + 1 ∧ j + 1 ≤ raw.length by omega)
  | false =>
    cases hquote : raw[j]?.any (fun b => b = quote || b = apostrophe) with
    | true =>
      obtain ⟨mark, hmark, -, hlt⟩ := exists_of_any hquote
      simp only [Bool.false_eq_true, if_false, if_true, elementAt_of_some hmark, ok_bind]
      exact .goesOn (show i ≤ j + 1 ∧ o < j + 1 ∧ j + 1 ≤ j + 1 ∧ j + 1 ≤ raw.length by omega)
    | false => exact .goesOn (show i ≤ j ∧ o < j ∧ j ≤ j ∧ j ≤ raw.length by omega)

/-- A value that is not closed ends with the text. -/
theorem leads_quoted {mark : UInt8} (h : i ≤ j ∧ o < j ∧ first ≤ j ∧ j ≤ raw.length) :
    Leads raw o (next raw base ⟨i, .quoted a mark first j, found⟩) := by
  obtain ⟨hij, hlow, hle, hhigh⟩ := h
  simp only [next, holdsAt_eq, ok_bind]
  cases hbyte : raw[j]?.any (· != mark) with
  | true =>
    obtain ⟨-, -, -, hlt⟩ := exists_of_any hbyte
    exact .goesOn (show i ≤ j + 1 ∧ o < j + 1 ∧ first ≤ j + 1 ∧ j + 1 ≤ raw.length by omega)
  | false =>
    simp only [Bool.false_eq_true, if_false, slice_of_le hle hhigh, ok_bind]
    refine .goesOn (show o < (if j < raw.length then j + 1 else j) ∧
      (if j < raw.length then j + 1 else j) ≤ _ from ?_)
    split <;> omega

theorem leads_unquoted (h : i ≤ j ∧ o < j ∧ first ≤ j ∧ j ≤ raw.length) :
    Leads raw o (next raw base ⟨i, .unquoted a first j, found⟩) := by
  obtain ⟨hij, hlow, hle, hhigh⟩ := h
  simp only [next, holdsAt_eq, ok_bind]
  cases hbyte : raw[j]?.any isUnquotedByte with
  | true =>
    obtain ⟨-, -, -, hlt⟩ := exists_of_any hbyte
    exact .goesOn (show i ≤ j + 1 ∧ o < j + 1 ∧ first ≤ j + 1 ∧ j + 1 ≤ raw.length by omega)
  | false =>
    simp only [Bool.false_eq_true, if_false, slice_of_le hle hhigh, ok_bind]
    exact .goesOn (show o < j ∧ j ≤ max raw.length 1 by omega)

end Phases

/-- **What a step does**: it does not fault, and leaves the indices where they should be. -/
theorem Inv.leads {o : Nat} (h : Inv raw o s) : Leads raw (s.lastHead o) (next raw base s) := by
  obtain ⟨i, phase, found⟩ := s
  cases phase with
  | tagName => exact leads_tagName h
  | head => exact leads_head
  | gap => exact leads_gap h
  | name => exact leads_name h
  | blanks => exact leads_blanks h
  | valueBlanks => exact leads_valueBlanks h
  | quoted => exact leads_quoted h
  | unquoted => exact leads_unquoted h

/-- A step leaves the indices where they should be. -/
theorem Inv.step {o : Nat} (h : Inv raw o s) (hstep : Step raw base s t) :
    Inv raw (s.lastHead o) t := by
  have hleads : Leads raw (s.lastHead o) (.ok (.inr t)) := hstep ▸ h.leads
  cases hleads with
  | goesOn ht => exact ht

/-- A step from such a scan does not fault. -/
theorem Inv.exists_next {o : Nat} (base : Int) (h : Inv raw o s) :
    ∃ r, next raw base s = .ok r := by
  have hleads : Leads raw (s.lastHead o) (next raw base s) := h.leads
  generalize next raw base s = r at hleads
  cases hleads with
  | ends found => exact ⟨.inl found, rfl⟩
  | goesOn ht => exact ⟨.inr _, rfl⟩

/-- Neither index leaves the text, but for the first byte of an empty one. -/
theorem Inv.le {o : Nat} (h : Inv raw o s) :
    s.i ≤ max raw.length 1 ∧ ∀ j, s.phase.second? = some j → j ≤ max raw.length 1 := by
  obtain ⟨i, phase, found⟩ := s
  cases phase <;> simp only [Inv, Phase.second?] at h ⊢ <;> grind

/-- Every scan on the way has its indices where they should be. -/
theorem inv_of_steps (h : Steps raw base start s) : ∃ o, Inv raw o s := by
  induction h with
  | refl => exact ⟨0, Nat.zero_lt_one, Nat.le_max_right _ _⟩
  | tail _ hstep ih =>
    obtain ⟨o, ho⟩ := ih
    exact ⟨_, ho.step hstep⟩

/-- **Every turn gets on**: at the next head the index is behind the one at the head before. -/
theorem TurnTo.lt {o : Nat} (h : Inv raw o s) (hturn : TurnTo raw base s (some t)) :
    s.lastHead o < t.i := by
  generalize hstop : some t = stop at hturn
  -- between two heads the index at the last head stays what it was
  induction hturn generalizing o with
  | exit => cases hstop
  | @head s t hstep hphase =>
    cases hstop
    have hinv := h.step hstep
    simp only [Inv, hphase] at hinv
    exact hinv.1
  | @step s u _ hstep hphase _ ih =>
    have hlt := ih (h.step hstep) hstop
    rwa [lastHead_of_ne hphase] at hlt

/-! ## The steps and the loops -/

/-- A loop passes over the first byte and goes on, or stops there. -/
theorem passOver_eq_ite (raw : Bytes) (p : UInt8 → Bool) (i : Nat) :
    passOver raw p i = if raw[i]?.any p = true then passOver raw p (i + 1) else .ok i := by
  rw [passOver]
  cases hi : raw[i]? with
  | none =>
    have hle : raw.length ≤ i := List.getElem?_eq_none_iff.mp hi
    rw [if_neg (Nat.not_lt.mpr hle)]
    rfl
  | some b =>
    have hlt : i < raw.length := (List.getElem?_eq_some_iff.mp hi).1
    rw [if_pos hlt, elementAt_of_some hi]
    rfl

/-- A loop goes by steps, if a step goes one byte on. The induction is on the bytes that are
    left. -/
theorem steps_passOver {p : UInt8 → Bool} {i k : Nat} (base : Int) (place : Nat → Scan)
    (hstep : ∀ k, raw[k]?.any p = true → Step raw base (place k) (place (k + 1)))
    (h : passOver raw p i = .ok k) :
    Steps raw base (place i) (place k) ∧ raw[k]?.any p = false := by
  induction hleft : raw.length - i generalizing i with
  | zero =>
    have hend : raw[i]? = none := List.getElem?_eq_none_iff.mpr (by omega)
    rw [passOver_eq_ite, hend] at h
    cases h
    exact ⟨.refl, by rw [hend]; rfl⟩
  | succ left ih =>
    rw [passOver_eq_ite] at h
    cases hbyte : raw[i]?.any p with
    | true =>
      rw [hbyte, if_pos rfl] at h
      obtain ⟨hsteps, hend⟩ := ih h (by omega)
      exact ⟨.head (hstep i hbyte) hsteps, hend⟩
    | false =>
      rw [hbyte] at h
      cases h
      exact ⟨.refl, hbyte⟩

section Loops

variable {i j k : Nat} {a : Scanned}

/-- Reading a value goes by steps, with quotes or without. -/
theorem steps_readValue {value : Bytes} (base : Int) (hblank : raw[j]?.any isSpace = false)
    (h : readValue raw j = .ok (value, k)) :
    Steps raw base ⟨i, .valueBlanks a j, found⟩
      ⟨k, .head, { a with value := some value }.addTo found⟩ := by
  rw [readValue, holdsAt_eq, ok_bind] at h
  cases hquote : raw[j]?.any (fun b => b = quote || b = apostrophe) with
  | true =>
    rw [hquote, if_pos rfl] at h
    obtain ⟨mark, hmark, h⟩ := bind_eq_ok_iff.mp h
    obtain ⟨stop, hstop, h⟩ := bind_eq_ok_iff.mp h
    obtain ⟨v, hslice, h⟩ := bind_eq_ok_iff.mp h
    cases h
    have hopen : Step raw base ⟨i, .valueBlanks a j, found⟩
        ⟨i, .quoted a mark (j + 1) (j + 1), found⟩ := by
      simp [Step, next, holdsAt_eq, hblank, hquote, hmark]
    obtain ⟨hloop, hend⟩ := steps_passOver base (fun k => ⟨i, .quoted a mark (j + 1) k, found⟩)
      (fun k hk => by simp [Step, next, holdsAt_eq, hk]) hstop
    -- the opening quote, the bytes of the value, and the quote that closes it
    refine .head hopen (hloop.tail ?_)
    simp only [Step, next, holdsAt_eq, hend, hslice, ok_bind, Bool.false_eq_true, if_false,
      pure_eq_ok]
  | false =>
    rw [hquote, if_neg Bool.false_ne_true] at h
    obtain ⟨stop, hstop, h⟩ := bind_eq_ok_iff.mp h
    obtain ⟨v, hslice, h⟩ := bind_eq_ok_iff.mp h
    cases h
    have hopen : Step raw base ⟨i, .valueBlanks a j, found⟩ ⟨i, .unquoted a j j, found⟩ := by
      simp [Step, next, holdsAt_eq, hblank, hquote]
    obtain ⟨hloop, hend⟩ := steps_passOver base (fun k => ⟨i, .unquoted a j k, found⟩)
      (fun k hk => by simp [Step, next, holdsAt_eq, hk]) hstop
    refine .head hopen (hloop.tail ?_)
    simp only [Step, next, holdsAt_eq, hend, hslice, ok_bind, Bool.false_eq_true, if_false,
      pure_eq_ok]

/-- Reading what is behind a name goes by steps. -/
theorem steps_readValuePart {value : Option Bytes} (base : Int) (ha : a.value = none)
    (h : readValuePart raw i = .ok (value, k)) :
    Steps raw base ⟨i, .blanks a i, found⟩ ⟨k, .head, { a with value }.addTo found⟩ := by
  obtain ⟨j, hj, h⟩ := bind_eq_ok_iff.mp h
  obtain ⟨hloop, hend⟩ := steps_passOver base (fun k => ⟨i, .blanks a k, found⟩)
    (fun k hk => by simp [Step, next, holdsAt_eq, hk]) hj
  rw [holdsAt_eq, ok_bind] at h
  cases hequals : raw[j]?.any (· = equals) with
  | true =>
    rw [hequals, if_pos rfl] at h
    obtain ⟨j', hj', h⟩ := bind_eq_ok_iff.mp h
    obtain ⟨⟨v, k'⟩, hread, h⟩ := bind_eq_ok_iff.mp h
    cases h
    have hbehind : Step raw base ⟨i, .blanks a j, found⟩ ⟨i, .valueBlanks a (j + 1), found⟩ := by
      simp [Step, next, holdsAt_eq, hend, hequals]
    obtain ⟨hblanks, hblank⟩ := steps_passOver base (fun k => ⟨i, .valueBlanks a k, found⟩)
      (fun k hk => by simp [Step, next, holdsAt_eq, hk]) hj'
    exact (hloop.tail hbehind).trans (hblanks.trans (steps_readValue base hblank hread))
  | false =>
    rw [hequals, if_neg Bool.false_ne_true] at h
    cases h
    refine hloop.tail ?_
    simp [Step, next, holdsAt_eq, hend, hequals, ← ha]

/-- What a turn notes down. -/
theorem addTo_scanned (found : List Scanned) (base : Int) (name : Bytes) (value : Option Bytes)
    (first : Nat) :
    Scanned.addTo found ⟨name, value, wrap64 (base + first)⟩ =
      found ++
        (if name.isEmpty then none else some ⟨name, value, first⟩ : Option Attribute).toList.map
        (Scanned.ofAttribute base) := by
  unfold Scanned.addTo
  split
  · simp
  · rfl

/-- The steps of a turn up to where it has passed over the separators. -/
theorem steps_gap {first : Nat} (found : List Scanned) (base : Int) (hlt : i < raw.length)
    (h : passOver raw isSeparator i = .ok first) :
    Steps raw base ⟨i, .head, found⟩ ⟨first, .gap, found⟩ ∧
      raw[first]?.any isSeparator = false := by
  obtain ⟨hloop, hend⟩ := steps_passOver base (fun k => ⟨k, .gap, found⟩)
    (fun k hk => by simp [Step, next, holdsAt_eq, hk]) h
  exact ⟨.head (by simp [Step, next, hlt]) hloop, hend⟩

/-- **A turn of the outer loop goes by steps**, from one head to the next. -/
theorem steps_turn {x : Option Attribute} (base : Int) (hlt : i < raw.length)
    (h : turn raw i = .ok (some (x, k))) :
    Steps raw base ⟨i, .head, found⟩
      ⟨k, .head, found ++ x.toList.map (Scanned.ofAttribute base)⟩ := by
  obtain ⟨first, hfirst, h⟩ := bind_eq_ok_iff.mp h
  obtain ⟨hgap, hseparator⟩ := steps_gap found base hlt hfirst
  rw [holdsAt_eq, ok_bind] at h
  cases hend : raw[first]?.any (· ≠ greaterThan) with
  | true =>
    rw [hend, if_pos rfl] at h
    obtain ⟨stop, hstop, h⟩ := bind_eq_ok_iff.mp h
    obtain ⟨name, hslice, h⟩ := bind_eq_ok_iff.mp h
    obtain ⟨⟨value, k'⟩, hpart, h⟩ := bind_eq_ok_iff.mp h
    cases h
    have hname : Step raw base ⟨first, .gap, found⟩ ⟨first, .name first, found⟩ := by
      simp only [Step, next, holdsAt_eq, hseparator, hend, ok_bind, Bool.false_eq_true, if_false,
        if_true, pure_eq_ok]
    obtain ⟨hloop, hbyte⟩ := steps_passOver base (fun k => ⟨k, .name first, found⟩)
      (fun k hk => by simp [Step, next, holdsAt_eq, hk]) hstop
    have hnamed : Step raw base ⟨stop, .name first, found⟩
        ⟨stop, .blanks ⟨name, none, wrap64 (base + first)⟩ stop, found⟩ := by
      simp [Step, next, holdsAt_eq, hbyte, hslice]
    rw [← addTo_scanned]
    -- separators, then the name, then the value
    exact (hgap.tail hname).trans ((hloop.tail hnamed).trans (steps_readValuePart base rfl hpart))
  | false =>
    rw [hend] at h
    cases h

/-- A turn that comes to the end of the tag is the last one. -/
theorem runs_turn (base : Int) (hlt : i < raw.length) (h : turn raw i = .ok none) :
    Runs raw base ⟨i, .head, found⟩ found := by
  obtain ⟨first, hfirst, h⟩ := bind_eq_ok_iff.mp h
  obtain ⟨hgap, hseparator⟩ := steps_gap found base hlt hfirst
  rw [holdsAt_eq, ok_bind] at h
  -- a turn that finds a name is not the last one
  cases hend : raw[first]?.any (· ≠ greaterThan) with
  | true =>
    rw [hend, if_pos rfl] at h
    obtain ⟨stop, -, h⟩ := bind_eq_ok_iff.mp h
    obtain ⟨name, -, h⟩ := bind_eq_ok_iff.mp h
    obtain ⟨part, -, h⟩ := bind_eq_ok_iff.mp h
    cases h
  | false =>
    refine .of_steps hgap (.stop ?_)
    simp only [next, holdsAt_eq, hseparator, hend, ok_bind, Bool.false_eq_true, if_false,
      pure_eq_ok]

/-- **All turns go by steps**, one after the other. -/
theorem runs_attributesFrom {as : List Attribute} (base : Int) (h : attributesFrom raw i = .ok as) :
    Runs raw base ⟨i, .head, found⟩ (found ++ as.map (Scanned.ofAttribute base)) := by
  -- the induction is that of the outer loop; what was found before is carried along
  fun_induction attributesFrom raw i generalizing as found with
  | case1 i hlt fault hturn => cases h
  | case2 i hlt hturn =>
    cases h
    simpa using runs_turn base hlt hturn
  | case3 i hlt x k hturn ih =>
    cases hrest : attributesFrom raw k with
    | error fault =>
      rw [hrest] at h
      cases h
    | ok rest =>
      rw [hrest] at h
      cases h
      rw [List.map_append, ← List.append_assoc]
      exact .of_steps (steps_turn base hlt hturn) (ih hrest)
  | case4 i hge =>
    cases h
    refine .stop ?_
    simp [next, hge]

end Loops

/-- A scan of a tag ends, and has found the attributes of the tag. -/
theorem runs_start (raw : Bytes) (base : Int) :
    Runs raw base start ((Markup.attributes raw).map (Scanned.ofAttribute base)) := by
  obtain ⟨i, hi, hfrom⟩ := bind_eq_ok_iff.mp (attributes_eq raw)
  obtain ⟨hname, hend⟩ := steps_passOver base (fun k => ⟨k, .tagName, []⟩)
    (fun k hk => by simp [Step, next, holdsAt_eq, hk]) hi
  have hhead : Step raw base ⟨i, .tagName, []⟩ ⟨i, .head, []⟩ := by
    simp [Step, next, holdsAt_eq, hend]
  exact .of_steps (hname.tail hhead) (runs_attributesFrom base hfrom)

/-! ## Progress -/

/-- **The scan always gets on**, whatever the bytes and wherever they stand. It ends with the
    attributes of the tag and with nothing else. On the way no index is behind the text, or behind
    the one byte that it leaves out at the start, and no step reads or cuts outside of the text. A
    turn of the outer loop comes to the next head or to the end, and at the next head the index is
    larger. -/
theorem scan_gets_on (raw : Bytes) (base : Int) :
    (∀ found, Runs raw base start found ↔
      found = (Markup.attributes raw).map (Scanned.ofAttribute base)) ∧
      ∀ s, Steps raw base start s →
        s.i ≤ max raw.length 1 ∧ (∀ j, s.phase.second? = some j → j ≤ max raw.length 1) ∧
        (∃ r, next raw base s = .ok r) ∧
        (s.phase = .head →
          (∃ stop, TurnTo raw base s stop) ∧ ∀ t, TurnTo raw base s (some t) → s.i < t.i) := by
  have hruns := runs_start raw base
  refine ⟨fun found => ⟨fun h => h.unique hruns, fun h => h ▸ hruns⟩, fun s hsteps => ?_⟩
  obtain ⟨o, hinv⟩ := inv_of_steps hsteps
  obtain ⟨hi, hj⟩ := hinv.le
  refine ⟨hi, hj, hinv.exists_next base,
    fun hhead => ⟨(hruns.after_steps hsteps).exists_turnTo, fun t hturn => ?_⟩⟩
  -- at a head, the index at the last head is its own
  have hlt := hturn.lt hinv
  simp only [lastHead, hhead] at hlt
  exact hlt

end Scan

end MarkupLint.Guarded
