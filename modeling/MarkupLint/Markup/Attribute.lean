/-
  The attributes of a start tag, read from its raw text.

  The reader walks a cursor over the tag. A *turn* passes over separators and reads one attribute;
  `turn_shorter` says that every turn gets on, so the reader ends on any bytes whatever.
-/
import MarkupLint.Markup.Token
import MarkupLint.Number.Word

namespace MarkupLint.Markup

open Ascii

/-- An attribute as it is written. `value` is `none` without an `=`, and `offset` counts the bytes
    of the tag before the name. -/
structure Attribute where
  name : Bytes
  value : Option Bytes
  offset : Nat
  deriving DecidableEq, Repr

/-- Where the attribute stands in a text whose part from `base` on is its tag, as a 64-bit
    number. -/
def Attribute.offsetFrom (base : Int) (a : Attribute) : Int := wrap64 (base + a.offset)

/-- The bytes that may stand between attributes. -/
def isSeparator (b : UInt8) : Bool := isSpace b || b = slash

/-- A byte of an attribute name. -/
def isAttributeByte (b : UInt8) : Bool := !(isSpace b || b = equals || b = greaterThan || b = slash)

/-- A byte of a value without quotes. -/
def isUnquotedByte (b : UInt8) : Bool := !(isSpace b || b = greaterThan)

/-- A place in a text: how many bytes lie before it, and the bytes from there on. -/
structure Cursor where
  position : Nat
  rest : Bytes
  deriving DecidableEq, Repr

namespace Cursor

/-- The place behind the bytes that satisfy `p`. -/
def past (p : UInt8 → Bool) (c : Cursor) : Cursor :=
  ⟨c.position + (c.rest.takeWhile p).length, c.rest.dropWhile p⟩

/-- The bytes in front that satisfy `p`. -/
def span (p : UInt8 → Bool) (c : Cursor) : Bytes := c.rest.takeWhile p

/-- The place one byte further, if there is a byte. -/
def skip (c : Cursor) : Cursor := ⟨c.position + min 1 c.rest.length, c.rest.drop 1⟩

theorem past_length_le (p : UInt8 → Bool) (c : Cursor) :
    (c.past p).rest.length ≤ c.rest.length :=
  (List.dropWhile_suffix p).length_le

theorem skip_length_le (c : Cursor) : c.skip.rest.length ≤ c.rest.length := by
  simp [skip]

/-- A byte in front that satisfies `p` is passed over. -/
theorem past_length_lt {p : UInt8 → Bool} {c : Cursor} {b : UInt8} {r : Bytes}
    (h : c.rest = b :: r) (hb : p b = true) : (c.past p).rest.length < c.rest.length := by
  have : (r.dropWhile p).length ≤ r.length := (List.dropWhile_suffix p).length_le
  simp only [past, h, List.dropWhile_cons, hb, if_true, List.length_cons]
  omega

end Cursor

/-- The value at the cursor, which stands behind `=` and the blanks after it: the bytes up to the
    same quote again, or without a quote those up to a blank or `>`. -/
def readValue (c : Cursor) : Bytes × Cursor :=
  match c.rest with
  | b :: _ =>
    if b = quote || b = apostrophe then
      let c := c.skip
      (c.span (· != b), (c.past (· != b)).skip)
    else (c.span isUnquotedByte, c.past isUnquotedByte)
  | [] => ([], c)

/-- The value part at the cursor, which stands behind a name. Without an `=` the cursor stays. -/
def readValuePart (c : Cursor) : Option Bytes × Cursor :=
  let d := c.past isSpace
  match d.rest with
  | b :: _ =>
    if b = equals then
      let (v, e) := readValue (d.skip.past isSpace)
      (some v, e)
    else (none, c)
  | [] => (none, c)

/-- One turn of the reader: the attribute it reads and where it stops, or `none` at the end of the
    tag. A value part without a name in front is passed over. -/
def turn (c : Cursor) : Option (Option Attribute × Cursor) :=
  let c := c.past isSeparator
  match c.rest with
  | [] => none
  | b :: _ =>
    if b = greaterThan then none
    else
      let name := c.span isAttributeByte
      let (value, d) := readValuePart (c.past isAttributeByte)
      some (if name.isEmpty then none else some ⟨name, value, c.position⟩, d)

/-! ## Progress -/

theorem readValue_length_le (c : Cursor) : (readValue c).2.rest.length ≤ c.rest.length := by
  unfold readValue
  split
  · split
    · exact Nat.le_trans (Cursor.skip_length_le _)
        (Nat.le_trans (Cursor.past_length_le _ _) (Cursor.skip_length_le _))
    · exact Cursor.past_length_le _ _
  · exact Nat.le_refl _

theorem readValuePart_length_le (c : Cursor) :
    (readValuePart c).2.rest.length ≤ c.rest.length := by
  unfold readValuePart
  simp only
  split
  · split
    · exact Nat.le_trans (readValue_length_le _) (Nat.le_trans (Cursor.past_length_le _ _)
        (Nat.le_trans (Cursor.skip_length_le _) (Cursor.past_length_le _ _)))
    · exact Nat.le_refl _
  · exact Nat.le_refl _

/-- At an `=` the value part takes at least that byte. -/
theorem readValuePart_length_lt {c : Cursor} {r : Bytes} (h : c.rest = equals :: r) :
    (readValuePart c).2.rest.length < c.rest.length := by
  have hp : (c.past isSpace).rest = equals :: r := by
    have : isSpace equals = false := by decide
    simp [Cursor.past, h, this]
  unfold readValuePart
  simp only [hp, if_true]
  have h1 := readValue_length_le ((c.past isSpace).skip.past isSpace)
  have h2 := Cursor.past_length_le isSpace (c.past isSpace).skip
  have h3 : (c.past isSpace).skip.rest.length = r.length := by simp [Cursor.skip, hp]
  rw [h, List.length_cons]
  omega

/-- Every turn that does not end the reading takes at least one byte. -/
theorem turn_shorter {c d : Cursor} {a : Option Attribute} (h : turn c = some (a, d)) :
    d.rest.length < c.rest.length := by
  have hs := Cursor.past_length_le isSeparator c
  have hd := List.head?_dropWhile_not isSeparator c.rest
  unfold turn at h
  simp only at h
  split at h
  · cases h
  · rename_i b r hb
    have hb' : (c.past isSeparator).rest = b :: r := hb
    split at h
    · cases h
    · rename_i hgt
      simp only [Option.some.injEq, Prod.mk.injEq] at h
      obtain ⟨-, rfl⟩ := h
      refine Nat.lt_of_lt_of_le ?_ hs
      by_cases hn : isAttributeByte b = true
      · exact Nat.lt_of_le_of_lt (readValuePart_length_le _) (Cursor.past_length_lt hb' hn)
      · -- neither a separator nor `>` nor a byte of a name: it is `=`
        have hsep : isSeparator b = false := by
          simp only [Cursor.past] at hb'
          simpa [hb'] using hd
        have he : b = equals := by
          simp only [isAttributeByte, isSeparator, Bool.not_eq_true, Bool.not_eq_false',
            Bool.or_eq_true, Bool.or_eq_false_iff, decide_eq_true_eq, decide_eq_false_iff_not]
            at hn hsep
          rcases hn with ((hn | hn) | hn) | hn
          · simp [hsep.1] at hn
          · exact hn
          · exact absurd hn hgt
          · exact absurd hn hsep.2
        subst he
        have hstay : ((c.past isSeparator).past isAttributeByte).rest = equals :: r := by
          have : isAttributeByte equals = false := by decide
          simp only [Cursor.past] at hb' ⊢
          simp [hb', this]
        have := readValuePart_length_lt hstay
        exact Nat.lt_of_lt_of_le this (Cursor.past_length_le _ _)

/-! ## The attributes of a tag -/

/-- The attributes from the cursor on. -/
def attributesFrom (c : Cursor) : List Attribute :=
  match _h : turn c with
  | none => []
  | some (a, d) => a.toList ++ attributesFrom d
termination_by c.rest.length
decreasing_by exact turn_shorter _h

/-- The attributes of a start tag, given its raw text: what follows the `<` and the element name. -/
def attributes (raw : Bytes) : List Attribute :=
  attributesFrom (Cursor.past isNameByte ⟨1, raw.drop 1⟩)

end MarkupLint.Markup
