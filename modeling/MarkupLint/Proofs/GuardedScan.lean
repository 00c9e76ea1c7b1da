/-
  Reading by index, with every operation guarded that is not defined on all its arguments.

  The reader of attributes is written here once more, as loops over indices into the raw text of a
  tag. A read or a slice that leaves the text is a `Fault`, and a fault ends everything.
  `attributes_eq` says that there is none, whatever the bytes, and that the loops read what the
  cursor reads: an index stands for the cursor at that place (`Cursor.In`).
-/
import MarkupLint.Proofs.MarkupOffsets

namespace MarkupLint.Guarded

open Ascii Markup

/-! ## Guarded operations -/

/-- An operation on arguments for which it is not defined. -/
inductive Fault where
  /-- a remainder by zero -/
  | zeroModulus
  /-- a name that a table does not have -/
  | noEntry (name : String)
  /-- an index outside of a list of this size -/
  | noIndex (i : Int) (size : Nat)
  /-- a slice that ends before its start, or outside of a list of this size -/
  | noSlice (lo hi : Int) (size : Nat)
  deriving DecidableEq, Repr

@[simp] theorem ok_bind {α β : Type} (a : α) (f : α → Except Fault β) : (Except.ok a >>= f) = f a :=
  rfl

@[simp] theorem error_bind {α β : Type} (e : Fault) (f : α → Except Fault β) :
    (Except.error e >>= f) = .error e := rfl

@[simp] theorem pure_eq_ok {α : Type} (a : α) : (pure a : Except Fault α) = .ok a := rfl

/-- The element at an index. -/
def elementAt {α : Type} (xs : List α) (i : Int) : Except Fault α :=
  if 0 ≤ i then
    match xs[i.toNat]? with
    | some x => .ok x
    | none => .error (.noIndex i xs.length)
  else .error (.noIndex i xs.length)

/-- The bytes from one index up to another. -/
def slice (s : Bytes) (lo hi : Int) : Except Fault Bytes :=
  if 0 ≤ lo ∧ lo ≤ hi ∧ hi ≤ s.length then .ok ((s.take hi.toNat).drop lo.toNat)
  else .error (.noSlice lo hi s.length)

/-- There is no fault at an index that has an element. -/
theorem elementAt_of_some {α : Type} {xs : List α} {i : Nat} {x : α} (h : xs[i]? = some x) :
    elementAt xs i = .ok x := by
  have hnonneg : (0 : Int) ≤ i := Int.natCast_nonneg i
  simp [elementAt, hnonneg, h]

/-- A slice whose ends are in order and in the text does not fault. -/
theorem slice_of_le {s : Bytes} {lo hi : Nat} (hle : lo ≤ hi) (hlen : hi ≤ s.length) :
    slice s lo hi = .ok ((s.drop lo).take (hi - lo)) := by
  have hguard : (0 : Int) ≤ lo ∧ (lo : Int) ≤ hi ∧ (hi : Int) ≤ s.length := by omega
  rw [slice, if_pos hguard, Int.toNat_natCast, Int.toNat_natCast, List.drop_take]

/-! ## Loops over a tag -/

/-- The first index from `i` on whose byte does not satisfy `p`. -/
def passOver (raw : Bytes) (p : UInt8 → Bool) (i : Nat) : Except Fault Nat :=
  if i < raw.length then do
    let b ← elementAt raw i
    if p b then passOver raw p (i + 1) else pure i
  else pure i
termination_by raw.length - i

/-- There is a byte at the index, and it satisfies `p`. -/
def holdsAt (raw : Bytes) (p : UInt8 → Bool) (i : Nat) : Except Fault Bool :=
  if i < raw.length then do
    let b ← elementAt raw i
    pure (p b)
  else pure false

/-- The value at the index, which stands behind `=` and the blanks after it, and the index behind
    it. -/
def readValue (raw : Bytes) (j : Nat) : Except Fault (Bytes × Nat) := do
  if ← holdsAt raw (fun b => b = quote || b = apostrophe) j then
    let mark ← elementAt raw j
    let stop ← passOver raw (· != mark) (j + 1)
    let value ← slice raw ((j + 1 : Nat) : Int) stop
    pure (value, if stop < raw.length then stop + 1 else stop)
  else
    let stop ← passOver raw isUnquotedByte j
    let value ← slice raw j stop
    pure (value, stop)

/-- The value part at the index, which stands behind a name. Without an `=` the index stays. -/
def readValuePart (raw : Bytes) (i : Nat) : Except Fault (Option Bytes × Nat) := do
  let j ← passOver raw isSpace i
  if ← holdsAt raw (· = equals) j then
    let j ← passOver raw isSpace (j + 1)
    let (value, j) ← readValue raw j
    pure (some value, j)
  else pure (none, i)

/-- One turn of the loop: the attribute it reads and the index where it stops, or `none` at the end
    of the tag. -/
def turn (raw : Bytes) (i : Nat) : Except Fault (Option (Option Attribute × Nat)) := do
  let start ← passOver raw isSeparator i
  if ← holdsAt raw (· ≠ greaterThan) start then
    let stop ← passOver raw isAttributeByte start
    let name ← slice raw start stop
    let (value, next) ← readValuePart raw stop
    pure (some (if name.isEmpty then none else some ⟨name, value, start⟩, next))
  else pure none

/-! ## The loops and the cursor -/

section Loops

variable {raw : Bytes} {c d : Cursor}

/-- At a cursor with something behind it, the index can be read. -/
theorem elementAt_cursor {b : UInt8} {r : Bytes} (hc : c.In raw) (hb : c.rest = b :: r) :
    elementAt raw c.position = .ok b :=
  elementAt_of_some (hc.getElem? hb)

/-- A cursor with something behind it stands in the text. -/
theorem lt_length_of_cons {b : UInt8} {r : Bytes} (hc : c.In raw) (hb : c.rest = b :: r) :
    c.position < raw.length :=
  (List.getElem?_eq_some_iff.mp (hc.getElem? hb)).1

/-- A cursor with nothing left stands at the end. -/
theorem length_le_of_nil (hc : c.In raw) (hnil : c.rest = []) : raw.length ≤ c.position := by
  have hdrop : raw.drop c.position = [] := by rw [← hc, hnil]
  exact List.drop_eq_nil_iff.mp hdrop

/-- A cursor inside of a tag stays there. -/
theorem position_le_of_reaches (hc : c.In raw) (h : c.Reaches d) (hle : c.position ≤ raw.length) :
    d.position ≤ raw.length := by
  obtain ⟨piece, hpiece, hpos⟩ := h
  have hlen : (raw.drop c.position).length = piece.length + d.rest.length := by
    rw [← hc, hpiece, List.length_append]
  rw [List.length_drop] at hlen
  omega

/-- The loop over bytes stops where the cursor does. The induction is on the bytes behind the
    cursor. -/
theorem passOver_eq (hc : c.In raw) (p : UInt8 → Bool) :
    passOver raw p c.position = .ok (c.past p).position := by
  obtain ⟨i, rest⟩ := c
  induction rest generalizing i with
  | nil =>
    have hend := length_le_of_nil hc rfl
    rw [passOver, if_neg (Nat.not_lt.mpr hend)]
    rfl
  | cons b r ih =>
    rw [passOver, if_pos (lt_length_of_cons hc rfl), elementAt_cursor hc rfl, ok_bind]
    by_cases hp : p b = true
    · have hnext : Cursor.In raw ⟨i + 1, r⟩ := by
        have hskip := (Cursor.reaches_skip ⟨i, b :: r⟩).in hc
        simpa [Cursor.skip] using hskip
      rw [if_pos hp, ih (i + 1) hnext]
      simp only [Cursor.past, List.takeWhile_cons, hp, if_true, List.length_cons]
      rw [Nat.add_assoc, Nat.add_comm 1]
    · rw [if_neg hp]
      simp [Cursor.past, hp]

/-- The test at an index is one of the byte behind the cursor. -/
theorem holdsAt_cons {b : UInt8} {r : Bytes} (hc : c.In raw) (hb : c.rest = b :: r)
    (p : UInt8 → Bool) :
    holdsAt raw p c.position = .ok (p b) := by
  rw [holdsAt, if_pos (lt_length_of_cons hc hb), elementAt_cursor hc hb]
  rfl

/-- At the end the test fails, and nothing is read. -/
theorem holdsAt_nil (hc : c.In raw) (hnil : c.rest = []) (p : UInt8 → Bool) :
    holdsAt raw p c.position = .ok false := by
  rw [holdsAt, if_neg (Nat.not_lt.mpr (length_le_of_nil hc hnil))]
  rfl

/-- The bytes that the loop passes over are those in front of the cursor. -/
theorem slice_eq_span (hc : c.In raw) (p : UInt8 → Bool) (hle : c.position ≤ raw.length) :
    slice raw c.position (c.past p).position = .ok (c.span p) := by
  have hreach := c.reaches_past p
  rw [slice_of_le hreach.position_le (position_le_of_reaches hc hreach hle), ← hc,
    c.rest_eq_span_append p]
  have hlength : (c.past p).position - c.position = (c.span p).length := by
    show c.position + (c.span p).length - c.position = (c.span p).length
    omega
  rw [hlength, List.take_left]

/-- A cursor skips a byte just when there is one at its index. -/
theorem skip_position (hc : c.In raw) :
    c.skip.position = if c.position < raw.length then c.position + 1 else c.position := by
  cases hrest : c.rest with
  | nil =>
    rw [if_neg (Nat.not_lt.mpr (length_le_of_nil hc hrest))]
    simp [Cursor.skip, hrest]
  | cons b r =>
    rw [if_pos (lt_length_of_cons hc hrest)]
    simp [Cursor.skip, hrest]

/-- A value is read by index as it is by cursor, in quotes and without. -/
theorem readValue_eq (hc : c.In raw) (hle : c.position ≤ raw.length) :
    readValue raw c.position = .ok ((Markup.readValue c).1, (Markup.readValue c).2.position) := by
  unfold readValue Markup.readValue
  cases hrest : c.rest with
  | nil =>
    -- nothing is left, and an empty value without quotes is read
    have hstay : (c.past isUnquotedByte).position = c.position := by simp [Cursor.past, hrest]
    have hempty : c.span isUnquotedByte = [] := by simp [Cursor.span, hrest]
    have hslice := slice_eq_span hc isUnquotedByte hle
    have hpass := passOver_eq hc isUnquotedByte
    rw [hstay] at hslice hpass
    rw [hempty] at hslice
    simp [holdsAt_nil hc hrest, hpass, hslice]
  | cons b r =>
    cases hquote : (b = quote || b = apostrophe : Bool) with
    -- between the quotes, and one further if the closing one is there
    | true =>
      have hlt := lt_length_of_cons hc hrest
      have hskip : c.skip.In raw := c.reaches_skip.in hc
      have hnext : c.skip.position = c.position + 1 := by rw [skip_position hc, if_pos hlt]
      have hpass := passOver_eq hskip (· != b)
      have hslice := slice_eq_span hskip (· != b) (by omega)
      have hend := skip_position ((c.skip.reaches_past (· != b)).in hskip)
      rw [hnext] at hpass hslice
      simp only [holdsAt_cons hc hrest, elementAt_cursor hc hrest, hquote, if_true, ok_bind, hpass,
        hslice, hend, pure_eq_ok]
    | false =>
      simp only [holdsAt_cons hc hrest, hquote, Bool.false_eq_true, if_false,
        passOver_eq hc isUnquotedByte, slice_eq_span hc isUnquotedByte hle, ok_bind, pure_eq_ok]

theorem readValuePart_eq (hc : c.In raw) :
    readValuePart raw c.position =
      .ok ((Markup.readValuePart c).1, (Markup.readValuePart c).2.position) := by
  have hd : (c.past isSpace).In raw := (c.reaches_past isSpace).in hc
  unfold readValuePart Markup.readValuePart
  simp only [passOver_eq hc isSpace, ok_bind]
  cases hrest : (c.past isSpace).rest with
  | nil => simp only [holdsAt_nil hd hrest, ok_bind, Bool.false_eq_true, if_false, pure_eq_ok]
  | cons b r =>
    by_cases heq : b = equals
    · have hlt := lt_length_of_cons hd hrest
      have hskip : (c.past isSpace).skip.In raw := (Cursor.reaches_skip _).in hd
      have hnext : (c.past isSpace).skip.position = (c.past isSpace).position + 1 := by
        rw [skip_position hd, if_pos hlt]
      -- blanks behind the `=`, and then the value
      have hblanks := (c.past isSpace).skip.reaches_past isSpace
      have hpass := passOver_eq hskip isSpace
      have hread :=
        readValue_eq (hblanks.in hskip) (position_le_of_reaches hskip hblanks (by omega))
      rw [hnext] at hpass
      simp only [holdsAt_cons hd hrest, heq, decide_true, if_true, hpass, hread, ok_bind,
        pure_eq_ok]
    · simp only [holdsAt_cons hd hrest, heq, decide_false, Bool.false_eq_true, if_false, ok_bind,
        pure_eq_ok]

/-- A turn of the loop is a turn of the cursor. -/
theorem turn_eq (hc : c.In raw) (hle : c.position ≤ raw.length) :
    turn raw c.position = .ok ((Markup.turn c).map fun t => (t.1, t.2.position)) := by
  have hstart := c.reaches_past isSeparator
  have hd : (c.past isSeparator).In raw := hstart.in hc
  have hdle := position_le_of_reaches hc hstart hle
  unfold turn Markup.turn
  simp only [passOver_eq hc isSeparator, ok_bind]
  cases hrest : (c.past isSeparator).rest with
  | nil => simp [holdsAt_nil hd hrest]
  | cons b r =>
    by_cases hgt : b = greaterThan
    · simp [holdsAt_cons hd hrest, hgt]
    · have hpart := readValuePart_eq (((c.past isSeparator).reaches_past isAttributeByte).in hd)
      simp [holdsAt_cons hd hrest, hgt, passOver_eq hd isAttributeByte,
        slice_eq_span hd isAttributeByte hdle, hpart]

end Loops

/-! ## The attributes of a tag -/

/-- **Every turn gets on**: the index that a turn stops at lies behind the one it began at, and not
    behind the end. -/
theorem turn_progress {raw : Bytes} {i next : Nat} {a : Option Attribute} (hi : i < raw.length)
    (h : turn raw i = .ok (some (a, next))) : i < next ∧ next ≤ raw.length := by
  have hin : Cursor.In raw ⟨i, raw.drop i⟩ := rfl
  rw [turn_eq hin (Nat.le_of_lt hi)] at h
  obtain ⟨⟨a', d⟩, hturn, hd⟩ := Option.map_eq_some_iff.mp (Except.ok.inj h)
  obtain ⟨-, rfl⟩ : a' = a ∧ d.position = next := Prod.mk.inj hd
  have hreach := reaches_turn hturn
  have hnext : d.rest = raw.drop d.position := hreach.in hin
  refine ⟨?_, position_le_of_reaches hin hreach (Nat.le_of_lt hi)⟩
  have hshorter := turn_shorter hturn
  rw [hnext, List.length_drop, List.length_drop] at hshorter
  omega

/-- The attributes from an index on. -/
def attributesFrom (raw : Bytes) (i : Nat) : Except Fault (List Attribute) :=
  if _hi : i < raw.length then
    match _h : turn raw i with
    | .error f => .error f
    | .ok none => .ok []
    | .ok (some (a, next)) => (attributesFrom raw next).map (a.toList ++ ·)
  else .ok []
termination_by raw.length - i
decreasing_by
  have hprogress := turn_progress _hi _h
  omega

/-- The attributes of a start tag, given its raw text. -/
def attributes (raw : Bytes) : Except Fault (List Attribute) := do
  let i ← passOver raw isNameByte 1
  attributesFrom raw i

/-- The loop over turns is that of the cursor, whose turns the induction is on. -/
theorem attributesFrom_eq {raw : Bytes} {c : Cursor} (hc : c.In raw) :
    attributesFrom raw c.position = .ok (Markup.attributesFrom c) := by
  fun_induction Markup.attributesFrom c with
  | case1 c hturn =>
    rw [attributesFrom]
    split
    · rename_i hlt
      -- no turn is left for the cursor, and so none for the index
      have hstop : turn raw c.position = .ok none := by
        rw [turn_eq hc (Nat.le_of_lt hlt), hturn]
        rfl
      split
      · rename_i hfault
        rw [hstop] at hfault
        exact absurd hfault (by simp)
      · rfl
      · rename_i hread
        rw [hstop] at hread
        exact absurd hread (by simp)
    · rfl
  | case2 c a d hturn ih =>
    -- the turn has read something, so the cursor is not at the end
    have hlt : c.position < raw.length := by
      obtain ⟨b, r, hcons⟩ : ∃ b r, c.rest = b :: r := by
        refine List.exists_cons_of_ne_nil fun hnil => ?_
        have hshorter := turn_shorter hturn
        rw [hnil] at hshorter
        exact absurd hshorter (Nat.not_lt_zero _)
      exact lt_length_of_cons hc hcons
    have hread : turn raw c.position = .ok (some (a, d.position)) := by
      rw [turn_eq hc (Nat.le_of_lt hlt), hturn]
      rfl
    rw [attributesFrom, dif_pos hlt]
    split
    · rename_i hfault
      rw [hread] at hfault
      exact absurd hfault (by simp)
    · rename_i hstop
      rw [hread] at hstop
      exact absurd hstop (by simp)
    · rename_i a' next hnext
      rw [hread] at hnext
      obtain ⟨rfl, rfl⟩ := Prod.mk.inj (Option.some.inj (Except.ok.inj hnext))
      rw [ih ((reaches_turn hturn).in hc)]
      rfl

/-- **The reader of attributes never leaves the tag**, and reads by index what it reads by
    cursor. -/
theorem attributes_eq (raw : Bytes) : attributes raw = .ok (Markup.attributes raw) := by
  have hstart : Cursor.In raw ⟨1, raw.drop 1⟩ := rfl
  have hpass := passOver_eq hstart isNameByte
  unfold attributes
  rw [hpass, ok_bind, attributesFrom_eq (in_afterName raw isNameByte)]
  rfl

end MarkupLint.Guarded
