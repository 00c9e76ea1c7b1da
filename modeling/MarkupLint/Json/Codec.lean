/-
  Codecs: how a value of the program stands on the wire.

  A codec reads all the values that are given for one place, because members of an object may
  repeat: the last one wins, an object given twice is read twice into the same record, and a list
  given twice is read twice into the same places. `null` leaves what is there, except where a value
  may be absent, where it means absent.

  Main definitions: `Codec`, the codecs of the basic types, and `Codec.record`, which puts a record
  together from a list of `Field`s that say, side by side, how a field is read and how it is
  written.
-/
import MarkupLint.Json.Reader
import MarkupLint.Json.Writer
import MarkupLint.Number.Word

namespace MarkupLint

/-- Why a JSON text gives no value: it is not JSON, or not of the right shape. -/
inductive ReadError where
  | malformed
  | mismatch
  deriving DecidableEq, Repr

/-- How a type stands on the wire. -/
structure Codec (α : Type) where
  /-- the value before anything is read -/
  blank : α
  /-- what the values given for one place, in their order, make of the value that is there -/
  read : α → List Json → Except ReadError α
  write : α → Json
  /-- what a field that may be left out does not write -/
  isBlank : α → Bool

namespace Codec

/-- What one value gives where nothing was before. -/
def readOne (c : Codec α) (v : Json) : Except ReadError α := c.read c.blank [v]

/-! ## Basic types -/

/-- Reads values each in place of the one before; `null` leaves what is there. -/
def readEach (value? : Json → Option α) (start : α) (vs : List Json) : Except ReadError α :=
  vs.foldlM (fun old v =>
    match v with
    | .null => .ok old
    | v => (value? v).elim (.error .mismatch) .ok) start

def string : Codec String where
  blank := ""
  read := readEach fun
    | .str s => some s
    | _ => none
  write := .str
  isBlank s := s.isEmpty

def flag : Codec Bool where
  blank := false
  read := readEach fun
    | .bool b => some b
    | _ => none
  write := .bool
  isBlank b := !b

/-- A 64-bit integer, written without fraction and exponent. -/
def integer : Codec Int where
  blank := 0
  read := readEach fun
    | .num n => n.toInt?.filter (fits64 ·)
    | _ => none
  write := Json.int
  isBlank n := n == 0

/-- A value that may be absent; `null` makes it so, and takes back what was given before it. -/
def nullable (c : Codec α) : Codec (Option α) where
  blank := none
  read start vs := do
    let (old, given) ← vs.foldlM (fun (old, given) v =>
      match v with
      | .null => (c.read (old.getD c.blank) given).map fun _ => (none, [])
      | v => .ok (old, given ++ [v])) (start, [])
    if given.isEmpty then .ok old else (c.read (old.getD c.blank) given).map some
  write
    | none => .null
    | some a => c.write a
  isBlank a := a.isNone

/-- What has been given for a list: the elements to start from, the values for each place since the
    list was last absent or empty, and its length now, `none` while it is absent. Places beyond the
    length keep what they were given. -/
structure Places (α : Type) where
  start : List α := []
  given : List (List Json) := []
  length : Option Nat := none

namespace Places

/-- The values for each place after one more list of values. -/
def addTo : List (List Json) → List Json → List (List Json)
  | given, [] => given
  | [], v :: vs => [v] :: addTo [] vs
  | old :: given, v :: vs => (old ++ [v]) :: addTo given vs

/-- What the values for each place make of the elements that are there. -/
def readFrom (c : Codec α) : List α → List (List Json) → Except ReadError (List α)
  | start, [] => .ok start
  | start, vs :: rest => do
    let a ← c.read (start.head?.getD c.blank) vs
    let as ← readFrom c start.tail rest
    pure (a :: as)

/-- What all places hold. -/
def read (c : Codec α) (p : Places α) : Except ReadError (List α) := readFrom c p.start p.given

/-- The places after one more value for the list. -/
def next (c : Codec α) (p : Places α) : Json → Except ReadError (Places α)
  | .null => (p.read c).map fun _ => {}
  | .arr [] => (p.read c).map fun _ => { length := some 0 }
  | .arr vs => .ok { p with given := addTo p.given vs, length := some vs.length }
  | _ => .error .mismatch

end Places

/-- A list that may be absent. An empty list is one that is there. -/
def list (c : Codec α) : Codec (Option (List α)) where
  blank := none
  read start vs := do
    let places ← vs.foldlM (Places.next c)
      { start := start.getD [], length := start.map List.length }
    let elements ← places.read c
    pure (places.length.map elements.take)
  write
    | none => .null
    | some as => .arr (as.map c.write)
  isBlank a := (a.getD []).isEmpty

/-- Any JSON value, kept as it is. -/
def raw : Codec (Option Json) where
  blank := none
  read start vs := .ok (vs.getLast?.or start)
  write v := v.getD .null
  isBlank v := v.isNone

/-! ## Records -/

/-- A field of a record on the wire: its member name, how the values given for it are read into the
    record, and how it is written, `none` when it is left out. -/
structure Field (ρ : Type) where
  name : String
  read : ρ → List Json → Except ReadError ρ
  write : ρ → Option Json

/-- A field that is always written. -/
def Field.always (name : String) (c : Codec α) (get : ρ → α) (set : ρ → α → ρ) : Field ρ where
  name := name
  read r vs := (c.read (get r) vs).map (set r)
  write r := some (c.write (get r))

/-- A field that is left out when it is blank. -/
def Field.whenSet (name : String) (c : Codec α) (get : ρ → α) (set : ρ → α → ρ) : Field ρ where
  name := name
  read r vs := (c.read (get r) vs).map (set r)
  write r := if c.isBlank (get r) then none else some (c.write (get r))

/-- The representative of a character under case folding, as far as it concerns ASCII names: two
    characters above ASCII fold to an ASCII letter. -/
def foldChar (c : Char) : Char :=
  if c = '\u017f' then 'S' else if c = '\u212a' then 'K' else c.toUpper

/-- The name that all spellings of it which differ in letter case share. -/
def foldName (s : String) : List Char := s.toList.map foldChar

/-- The field that a member name means: the one spelled so, else one spelled so up to case. -/
def field? (fields : List (Field ρ)) (key : String) : Option (Field ρ) :=
  match fields.find? (·.name == key) with
  | some f => some f
  | none => fields.find? fun f => foldName f.name == foldName key

/-- The values that are given for a field, by the name of the field; unknown members are passed
    over. -/
def named (fields : List (Field ρ)) (members : List (String × Json)) : List (String × Json) :=
  members.filterMap fun m => (field? fields m.1).map fun f => (f.name, m.2)

/-- Reads the members of an object into a record. What no member names stays as it is. -/
def readMembers (fields : List (Field ρ)) (r : ρ) (members : List (String × Json)) :
    Except ReadError ρ :=
  let given := named fields members
  fields.foldlM (fun r f =>
    match given.filterMap fun m => if m.1 == f.name then some m.2 else none with
    | [] => .ok r
    | vs => f.read r vs) r

/-- The members of all objects among the values, in their order. -/
def members (vs : List Json) : Except ReadError (List (String × Json)) :=
  vs.foldlM (fun ms v =>
    match v with
    | .null => .ok ms
    | .obj more => .ok (ms ++ more)
    | _ => .error .mismatch) []

/-- A record with the given fields, in the order in which they are written. -/
def record (blank : ρ) (fields : List (Field ρ)) : Codec ρ where
  blank := blank
  read start vs := do readMembers fields start (← members vs)
  write r := .obj (fields.filterMap fun f => (f.write r).map fun v => (f.name, v))
  isBlank _ := false

/-! ## Texts -/

/-- Reads the value of a text. The whole text must be JSON before anything is read from it. -/
def readText (c : Codec α) (s : Bytes) : Except ReadError α :=
  match Json.ofBytes? s with
  | none => .error .malformed
  | some v => c.readOne v

/-- The text of a value. -/
def writeText (c : Codec α) (a : α) : String := (c.write a).render

end Codec
end MarkupLint
