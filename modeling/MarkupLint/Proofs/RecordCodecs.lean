/-
  Records on the wire.

  A member of an object goes to the field of its name, letter case aside, so as long as the names of
  the fields stay apart without their case, a field is given the values of its own members and no
  others (`readMembers_eq`). What several values for one place come to is a rule of its own,
  `LastGiven`: all of them must be of the right kind, and the last one counts. A plain value is read
  by this rule from the values that are not `null`, and a value that may be absent from all of them.
-/
import Mathlib.Data.List.Nodup
import MarkupLint.Proofs.JsonTexts
import MarkupLint.Proofs.Lists

namespace MarkupLint
namespace Codec

open Json

variable {α ρ : Type} {f : Field ρ} {fields : List (Field ρ)} {ms : List (String × Json)}
  {vs ws : List Json} {v : Json} {a b start : α} {value? : Json → Option α}

/-! ## The members of a field -/

/-- No two fields have one name when letter case is left aside. -/
def Apart (fields : List (Field ρ)) : Prop := (fields.map fun f => foldName f.name).Nodup

instance (fields : List (Field ρ)) : Decidable (Apart fields) :=
  inferInstanceAs (Decidable (List.Nodup _))

/-- The values of the members with a name, letter case aside. -/
def valuesFor (name : String) (ms : List (String × Json)) : List Json :=
  ms.filterMap fun m => if foldName m.1 = foldName name then some m.2 else none

theorem valuesFor_append (name : String) (ms ns : List (String × Json)) :
    valuesFor name (ms ++ ns) = valuesFor name ms ++ valuesFor name ns := List.filterMap_append

/-- A name tells its field, letter case aside. -/
theorem Apart.eq (h : Apart fields) {g : Field ρ} (hf : f ∈ fields) (hg : g ∈ fields)
    (hname : foldName f.name = foldName g.name) : f = g :=
  List.inj_on_of_nodup_map h hf hg hname

/-- The field that is found has the name, as it is written or letter case aside. -/
theorem field?_eq_some {key : String} (h : field? fields key = some f) :
    f ∈ fields ∧ foldName f.name = foldName key := by
  unfold field? at h
  split at h
  · rename_i g hfound
    obtain rfl := Option.some.inj h
    have hname := List.find?_some hfound
    exact ⟨List.mem_of_find?_eq_some hfound, by rw [eq_of_beq hname]⟩
  · have hname := List.find?_some h
    exact ⟨List.mem_of_find?_eq_some h, eq_of_beq hname⟩

/-- A member goes to the field of its name. -/
theorem Apart.field?_eq (h : Apart fields) (hf : f ∈ fields) {key : String}
    (hname : foldName key = foldName f.name) : field? fields key = some f := by
  have hsome : (field? fields key).isSome := by
    unfold field?
    split
    · rfl
    · rw [List.find?_isSome]
      exact ⟨f, hf, beq_iff_eq.2 hname.symm⟩
  obtain ⟨g, hg⟩ := Option.isSome_iff_exists.1 hsome
  obtain ⟨hmem, hfold⟩ := field?_eq_some hg
  rw [hg, h.eq hmem hf (hfold.trans hname)]

/-- A field is given the values of its own members. -/
theorem Apart.named_eq (h : Apart fields) (hf : f ∈ fields) (ms : List (String × Json)) :
    ((named fields ms).filterMap fun m => if m.1 == f.name then some m.2 else none) =
      valuesFor f.name ms := by
  unfold named valuesFor
  rw [List.filterMap_filterMap]
  congr 1
  funext m
  -- members of this name go to the field, and no others
  by_cases hname : foldName m.1 = foldName f.name
  · rw [h.field?_eq hf hname]
    simp [hname]
  · rw [if_neg hname]
    cases hfield : field? fields m.1 with
    | none => rfl
    | some g =>
      have hne : g.name ≠ f.name := by
        intro heq
        exact hname ((field?_eq_some hfield).2.symm.trans (by rw [heq]))
      simp [hne]

/-- What the members of an object make of one field of a record. -/
def Field.take (f : Field ρ) (ms : List (String × Json)) (r : ρ) : Except ReadError ρ :=
  match valuesFor f.name ms with
  | [] => .ok r
  | vs => f.read r vs

/-- An object is read field by field, each from its own members. -/
theorem readMembers_eq (h : Apart fields) (r : ρ) (ms : List (String × Json)) :
    readMembers fields r ms = fields.foldlM (fun r f => f.take ms r) r := by
  unfold readMembers
  refine foldlM_congr (fun f hf r => ?_) r
  rw [h.named_eq hf]
  rfl

/-- A field without values stays as it is, so where a codec leaves alone what it is given nothing
    for, the values decide. -/
theorem take_eq {c : Codec α} {get : ρ → α} {set : ρ → α → ρ}
    (hread : ∀ r vs, f.read r vs = (c.read (get r) vs).map (set r))
    (hnil : ∀ a, c.read a [] = .ok a) (hset : ∀ r, set r (get r) = r) (ms : List (String × Json))
    (r : ρ) :
    f.take ms r = (c.read (get r) (valuesFor f.name ms)).map (set r) := by
  unfold Field.take
  split
  · rename_i hnone
    rw [hnone, hnil]
    show Except.ok r = Except.ok (set r (get r))
    rw [hset]
  · exact hread ..

/-- One field further in a record. -/
theorem foldlM_take_cons {c : Codec α} {get : ρ → α} {set : ρ → α → ρ}
    (hread : ∀ r vs, f.read r vs = (c.read (get r) vs).map (set r))
    (hnil : ∀ a, c.read a [] = .ok a) (hset : ∀ r, set r (get r) = r) {r s : ρ} :
    (f :: fields).foldlM (fun r f => f.take ms r) r = .ok s ↔
      ∃ a, c.read (get r) (valuesFor f.name ms) = .ok a ∧
        fields.foldlM (fun r f => f.take ms r) (set r a) = .ok s := by
  rw [List.foldlM_cons, take_eq hread hnil hset]
  cases c.read (get r) (valuesFor f.name ms) with
  | error e => simp [Except.map, bind, Except.bind]
  | ok a => simp [Except.map, bind, Except.bind]

/-! ## Written records -/

/-- The members that are written for a record. -/
def written (fields : List (Field ρ)) (r : ρ) : List (String × Json) :=
  fields.filterMap fun f => (f.write r).map fun v => (f.name, v)

theorem written_append (fs gs : List (Field ρ)) (r : ρ) :
    written (fs ++ gs) r = written fs r ++ written gs r :=
  List.filterMap_append

/-- Fields of other names write nothing under this one. -/
theorem valuesFor_written_eq_nil {name : String}
    (h : ∀ f ∈ fields, foldName f.name ≠ foldName name) (r : ρ) :
    valuesFor name (written fields r) = [] := by
  unfold valuesFor written
  rw [List.filterMap_filterMap, List.filterMap_eq_nil_iff]
  intro f hf
  cases f.write r with
  | none => rfl
  | some v => simp [h f hf]

/-- A field finds in a written record what it has written. -/
theorem Apart.valuesFor_written (h : Apart fields) (hf : f ∈ fields) (r : ρ) :
    valuesFor f.name (written fields r) = (f.write r).toList := by
  obtain ⟨before, after, rfl⟩ := List.append_of_mem hf
  rw [Apart, List.map_append, List.map_cons, List.nodup_append, List.nodup_cons] at h
  obtain ⟨-, ⟨hafter, -⟩, hbefore⟩ := h
  -- the fields before and behind it have other names
  have hfirst : valuesFor f.name (written before r) = [] :=
    valuesFor_written_eq_nil
      (fun g hg heq => hbefore _ (List.mem_map_of_mem hg) _ List.mem_cons_self heq) r
  have hlast : valuesFor f.name (written after r) = [] :=
    valuesFor_written_eq_nil (fun g hg heq => hafter (heq ▸ List.mem_map_of_mem hg)) r
  rw [written_append, valuesFor_append, hfirst, List.nil_append]
  cases hwrite : f.write r with
  | none =>
    rw [show written (f :: after) r = written after r by simp [written, hwrite], hlast]
    rfl
  | some v =>
    rw [show written (f :: after) r = [(f.name, v)] ++ written after r by simp [written, hwrite],
      valuesFor_append, hlast]
    simp [valuesFor]

/-- A field that is left out when it is blank writes its value or nothing. -/
theorem eq_of_write_whenSet {c : Codec α} {name : String} {get : ρ → α} {set : ρ → α → ρ} {r : ρ}
    (h : (Field.whenSet name c get set).write r = some v) : v = c.write (get r) := by
  unfold Field.whenSet at h
  simp only at h
  split at h
  · exact absurd h (by simp)
  · exact (Option.some.inj h).symm

/-- A record is one level deeper than its fields. -/
theorem writable_record {d : Nat} (blank : ρ) {r : ρ}
    (h : ∀ f ∈ fields, ∀ v ∈ f.write r, Writable d v) :
    Writable (d + 1) ((record blank fields).write r) := by
  refine Writable.obj fun m hm => ?_
  obtain ⟨f, hf, hwrite⟩ := List.mem_filterMap.1 hm
  obtain ⟨v, hv, rfl⟩ := Option.map_eq_some_iff.1 hwrite
  exact h f hf v hv

/-! ## Repeated values -/

/-- What several values for one place come to: each must be of the right kind, and the last one
    counts. -/
def LastGiven (value? : Json → Option α) (start : α) (vs : List Json) (a : α) : Prop :=
  (∀ v ∈ vs, (value? v).isSome) ∧ vs.getLast?.elim (some start) value? = some a

instance [DecidableEq α] (value? : Json → Option α) (start : α) (vs : List Json) (a : α) :
    Decidable (LastGiven value? start vs a) := inferInstanceAs (Decidable (_ ∧ _))

theorem lastGiven_nil : LastGiven value? start [] a ↔ start = a := by
  simp [LastGiven]

/-- A value of the right kind takes the place of what was there before. -/
theorem lastGiven_cons :
    LastGiven value? start (v :: vs) a ↔ ∃ b, value? v = some b ∧ LastGiven value? b vs a := by
  unfold LastGiven
  rw [List.forall_mem_cons, List.getLast?_cons, Option.isSome_iff_exists]
  constructor
  · rintro ⟨⟨⟨b, hb⟩, hvs⟩, hlast⟩
    refine ⟨b, hb, hvs, ?_⟩
    cases h : vs.getLast? with
    | none => simpa [h, hb] using hlast
    | some w => simpa [h] using hlast
  · rintro ⟨b, hb, hvs, hlast⟩
    refine ⟨⟨⟨b, hb⟩, hvs⟩, ?_⟩
    cases h : vs.getLast? with
    | none => simpa [h, hb] using hlast
    | some w => simpa [h] using hlast

theorem lastGiven_singleton : LastGiven value? start [v] a ↔ value? v = some a := by
  simp [lastGiven_cons, lastGiven_nil]

/-- Values can be given in parts. -/
theorem lastGiven_append :
    LastGiven value? start (vs ++ ws) a ↔
      ∃ b, LastGiven value? start vs b ∧ LastGiven value? b ws a := by
  induction vs generalizing start with
  | nil => simp [lastGiven_nil]
  | cons v vs ih =>
    simp only [List.cons_append, lastGiven_cons, ih]
    constructor
    · rintro ⟨b, hv, c, hvs, hws⟩
      exact ⟨c, ⟨b, hv, hvs⟩, hws⟩
    · rintro ⟨c, ⟨b, hv, hvs⟩, hws⟩
      exact ⟨b, hv, c, hvs, hws⟩

def isNull : Json → Bool
  | .null => true
  | _ => false

/-- The values that say something where `null` leaves what is there. -/
def notNull (vs : List Json) : List Json := vs.filter (!isNull ·)

/-- A value that is not `null` is read, or is a mismatch. -/
theorem readEach_cons (hv : isNull v = false) (vs : List Json) :
    readEach value? start (v :: vs) =
      (value? v).elim (.error .mismatch) fun b => readEach value? b vs := by
  have hstep : readEach value? start (v :: vs) =
      ((value? v).elim (.error .mismatch) .ok : Except ReadError α) >>= fun b =>
        readEach value? b vs := by
    cases v with
    | null => exact absurd hv (by decide)
    | _ => rfl
  rw [hstep]
  cases value? v with
  | none => rfl
  | some b => rfl

/-- A plain value is the last one that is not `null`. -/
theorem readEach_eq_ok_iff :
    readEach value? start vs = .ok a ↔ LastGiven value? start (notNull vs) a := by
  induction vs generalizing start with
  | nil =>
    rw [notNull, List.filter_nil, lastGiven_nil]
    exact Except.ok.injEq start a ▸ Iff.rfl
  | cons v vs ih =>
    cases hv : isNull v with
    | true =>
      obtain rfl : v = .null := by
        cases v with
        | null => rfl
        | _ => exact absurd hv (by simp [isNull])
      rw [show notNull (.null :: vs) = notNull vs from rfl, ← ih]
      rfl
    | false =>
      rw [show notNull (v :: vs) = v :: notNull vs by simp [notNull, hv], lastGiven_cons,
        readEach_cons hv]
      cases value? v with
      | none => simp
      | some b => simp [ih]

/-! ## Values that may be absent -/

/-- A value that may be absent, given by `null` or by a value of the right kind. -/
def orAbsent (value? : Json → Option α) (v : Json) : Option (Option α) :=
  if isNull v then some none else (value? v).map some

/-- One more value for a place that may be empty: the values since the last `null` are kept back. -/
def keepBack (c : Codec α) (p : Option α × List Json) (v : Json) :
    Except ReadError (Option α × List Json) :=
  if isNull v then (c.read (p.1.getD c.blank) p.2).map fun _ => (none, [])
  else .ok (p.1, p.2 ++ [v])

/-- What has been kept back is read at the end. -/
def settle (c : Codec α) (p : Option α × List Json) : Except ReadError (Option α) :=
  if p.2.isEmpty then .ok p.1 else (c.read (p.1.getD c.blank) p.2).map some

/-- A place that may be empty is read in two parts: `null` empties it, and the rest is kept back. -/
theorem nullable_read (c : Codec α) (old : Option α) (vs : List Json) :
    (nullable c).read old vs = (vs.foldlM (keepBack c) (old, [])).bind (settle c) := by
  unfold nullable
  show List.foldlM _ _ vs >>= _ = List.foldlM _ _ vs >>= _
  congr 1
  congr 1
  funext p v
  cases v with
  | _ => rfl

/-- Values come to something if each is of the right kind. -/
theorem exists_lastGiven_iff :
    (∃ a, LastGiven value? start vs a) ↔ ∀ v ∈ vs, (value? v).isSome := by
  induction vs generalizing start with
  | nil => simp [lastGiven_nil]
  | cons v vs ih =>
    simp only [lastGiven_cons, List.forall_mem_cons, Option.isSome_iff_exists]
    constructor
    · rintro ⟨a, b, hv, hvs⟩
      exact ⟨⟨b, hv⟩, fun w hw => Option.isSome_iff_exists.1 (ih.1 ⟨a, hvs⟩ w hw)⟩
    · rintro ⟨⟨b, hv⟩, hvs⟩
      obtain ⟨a, ha⟩ : ∃ a, LastGiven value? b vs a :=
        ih.2 fun w hw => Option.isSome_iff_exists.2 (hvs w hw)
      exact ⟨a, b, hv, ha⟩

/-- Values without `null` among them are read one like the other. -/
theorem map_readEach_eq_ok_iff {c : Option α} (h : ∀ v ∈ vs, isNull v = false) :
    (readEach value? b vs).map some = .ok c ↔ LastGiven (orAbsent value?) (some b) vs c := by
  induction vs generalizing b with
  | nil =>
    rw [lastGiven_nil]
    exact Except.ok.injEq (some b) c ▸ Iff.rfl
  | cons v vs ih =>
    have hv := h v List.mem_cons_self
    rw [readEach_cons hv, lastGiven_cons, orAbsent, hv]
    cases value? v with
    | none => simp [Except.map]
    | some b' => simp [ih fun w hw => h w (List.mem_cons_of_mem v hw)]

/-- Values without `null` are read for a place that may be empty just when they are for one that is
    not. -/
theorem exists_readEach_iff {old : Option α} (h : ∀ v ∈ vs, isNull v = false) (start : α) :
    (∃ a, readEach value? start vs = .ok a) ↔ ∃ o, LastGiven (orAbsent value?) old vs o := by
  have hall : notNull vs = vs := List.filter_eq_self.2 fun v hv => by rw [h v hv]; rfl
  simp only [readEach_eq_ok_iff, hall, exists_lastGiven_iff]
  constructor
  · intro hvs v hv
    simpa [orAbsent, h v hv] using hvs v hv
  · intro hvs v hv
    simpa [orAbsent, h v hv] using hvs v hv

/-- A value that may be absent is the last one, and `null` stands for none. -/
theorem keepBack_settle_eq_ok_iff {c : Codec α} (hc : c.read = readEach value?) {old : Option α}
    {given : List Json} (hgiven : ∀ v ∈ given, isNull v = false) {o : Option α} :
    (vs.foldlM (keepBack c) (old, given)).bind (settle c) = .ok o ↔
      LastGiven (orAbsent value?) old (given ++ vs) o := by
  induction vs generalizing old given with
  -- at the end, what has been kept back is read, if there is any
  | nil =>
    rw [List.append_nil]
    show settle c (old, given) = .ok o ↔ _
    cases given with
    | nil =>
      rw [lastGiven_nil]
      exact Except.ok.injEq old o ▸ Iff.rfl
    | cons v given =>
      have hv := hgiven v List.mem_cons_self
      rw [settle, hc]
      show (readEach value? _ (v :: given)).map some = .ok o ↔ _
      rw [readEach_cons hv, lastGiven_cons, orAbsent, hv]
      cases value? v with
      | none => simp [Except.map]
      | some b => simp [map_readEach_eq_ok_iff fun w hw => hgiven w (List.mem_cons_of_mem v hw)]
  | cons v vs ih =>
    cases hv : isNull v with
    | true =>
      -- at `null` what was kept back must be of the right kind, but it no longer counts
      rw [List.foldlM_cons, keepBack, if_pos hv, hc, lastGiven_append]
      simp only [lastGiven_cons, orAbsent, if_pos hv, Option.some.injEq, exists_eq_left',
        exists_and_right]
      rw [← exists_readEach_iff hgiven (old.getD c.blank)]
      cases hread : readEach value? (old.getD c.blank) given with
      | error e =>
        refine ⟨fun h => absurd h (by simp [Except.map, Except.bind, bind]), ?_⟩
        rintro ⟨⟨b, hb⟩, -⟩
        exact absurd hb (by simp)
      | ok b =>
        have hrest : (vs.foldlM (keepBack c) (none, [])).bind (settle c) = .ok o ↔
            LastGiven (orAbsent value?) none vs o := ih (by simp)
        exact hrest.trans ⟨fun h => ⟨⟨b, rfl⟩, h⟩, fun h => h.2⟩
    | false =>
      rw [List.foldlM_cons, keepBack, hv]
      have hall : ∀ w ∈ given ++ [v], isNull w = false := by
        intro w hw
        rcases List.mem_append.1 hw with hw | hw
        · exact hgiven w hw
        · rwa [List.mem_singleton.1 hw]
      have hrest : (vs.foldlM (keepBack c) (old, given ++ [v])).bind (settle c) = .ok o ↔
          LastGiven (orAbsent value?) old (given ++ [v] ++ vs) o := ih hall
      rwa [List.append_assoc, List.singleton_append] at hrest

theorem nullable_eq_ok_iff {c : Codec α} (hc : c.read = readEach value?) {old o : Option α} :
    (nullable c).read old vs = .ok o ↔ LastGiven (orAbsent value?) old vs o := by
  rw [nullable_read]
  exact keepBack_settle_eq_ok_iff hc (by simp)

/-! ## Basic types -/

/-- The 64-bit integer that a value is. -/
def integer64? : Json → Option Int
  | .num n => n.toInt?.filter (fits64 ·)
  | _ => none

/-- The text that a value is. -/
def text? : Json → Option String
  | .str s => some s
  | _ => none

/-- The truth value that a value is. -/
def truth? : Json → Option Bool
  | .bool b => some b
  | _ => none

theorem integer_eq_ok_iff {old n : Int} :
    integer.read old vs = .ok n ↔ LastGiven integer64? old (notNull vs) n := readEach_eq_ok_iff

theorem string_eq_ok_iff {old s : String} :
    string.read old vs = .ok s ↔ LastGiven text? old (notNull vs) s := readEach_eq_ok_iff

theorem flag_read : flag.read = readEach truth? := rfl

/-- Integers of 64 bits are read as they were written. -/
theorem integer64?_int {n : Int} (h : fits64 n = true) : integer64? (.int n) = some n := by
  show (JsonNumber.ofInt n).toInt?.filter _ = some n
  rw [JsonNumber.toInt?_ofInt]
  simp [h]

end Codec
end MarkupLint
