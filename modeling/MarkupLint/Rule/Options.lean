/-
  The options of the seven rules, read from a configuration.

  Every option has a kind, and a kind says which values it takes. A missing value and `null` mean
  the default. Reading fails at the first option, in the order of the fields below, whose value is
  not of its kind.
-/
import MarkupLint.Number.Word
import MarkupLint.Rule.Config
import MarkupLint.Rule.NameStyle
import MarkupLint.Text.Quoted

namespace MarkupLint

/-- The settings of the seven rules; `none`, `false` and zero turn a rule off. -/
structure Options where
  /-- banned attribute names -/
  attrBans : Option (List String)
  attrNameStyle : Option NameStyle
  attrNoDup : Bool
  /-- the style of the values of `id` and `class` -/
  idClassStyle : Option NameStyle
  idNoDup : Bool
  /-- indentation comes in groups of this many spaces -/
  indentWidth : Nat
  /-- how many attributes may stand on the line of their tag -/
  attrNewLine : Nat
  deriving DecidableEq, Repr

/-- An option with a value that is not of its kind. -/
structure InvalidOption where
  key : String
  value : ConfigValue

namespace InvalidOption

def message (e : InvalidOption) : String :=
  "invalid value for option " ++ Quoted.ofString e.key ++ ": " ++ e.value.message

end InvalidOption

namespace Options

/-- The attributes that are banned unless the configuration says otherwise. -/
def defaultBans : List String :=
  ["align", "background", "bgcolor", "border", "frameborder", "longdesc", "marginwidth",
   "marginheight", "scrolling", "style", "width"]

/-- Numeric options go up to this number. -/
def maxNumber : Nat := 2147483647

/-! ## Kinds of options

  Each kind is a partial function from values; `none` rejects the value. -/

/-- A switch. -/
def flag? : ConfigValue → Option Bool
  | .bool b => some b
  | _ => none

/-- A naming style, or `false` for none. -/
def style? : ConfigValue → Option (Option NameStyle)
  | .bool false => some none
  | .text s => (NameStyle.ofText? s).map some
  | _ => none

/-- The value of a run of decimal digits. -/
def digitsValue? (ds : List Char) : Option Nat :=
  if ds.isEmpty || !ds.all NameStyle.isDigit then none
  else some (JsonNumber.digitsValue 0 ds)

/-- A signed decimal number within 64 bits. -/
def decimal? (cs : List Char) : Option Int := do
  let n : Int ← match cs with
    | '-' :: ds => (digitsValue? ds).map fun n => -(n : Int)
    | '+' :: ds => (digitsValue? ds).map Int.ofNat
    | ds => (digitsValue? ds).map Int.ofNat
  if fits64 n then some n else none

/-- A number that is not negative and not above `maxNumber`. -/
def inRange? (n : Int) : Option Nat := if 0 ≤ n ∧ n ≤ maxNumber then some n.toNat else none

/-- A number as a string: one `+` in front is dropped before the decimal is read. -/
def numberOfText? (s : String) : Option Nat :=
  let cs := match s.toList with
    | '+' :: cs => cs
    | cs => cs
  (decimal? cs).bind inRange?

/-- A number: `true` is the default and `false` is zero. -/
def number? (default : Nat) : ConfigValue → Option Nat
  | .bool b => some (if b then default else 0)
  | .number x => x.natural?.bind fun n => inRange? n
  | .integer n => inRange? n
  | .text s => numberOfText? s
  | _ => none

/-- The strings of a list that holds nothing else. -/
def textsOf? : List ConfigValue → Option (List String)
  | [] => some []
  | .text s :: vs => (textsOf? vs).map (s :: ·)
  | _ :: _ => none

/-- A list of names: `true` is the default, `false` is none, a single string is a list of one. -/
def names? (default : List String) : ConfigValue → Option (Option (List String))
  | .bool b => some (if b then some default else none)
  | .text s => some (some [s])
  | .texts ss => some (some ss)
  | .list vs => (textsOf? vs).map some
  | _ => none

/-! ## Reading a configuration -/

/-- The option `key` of the given kind; without a value, or with `null`, it is `default`. -/
def option (config : Config) (key : String) (default : α) (kind : ConfigValue → Option α) :
    Except InvalidOption α :=
  match config.get? key with
  | none | some .null => .ok default
  | some v =>
    match kind v with
    | some a => .ok a
    | none => .error ⟨key, v⟩

/-- The options of a configuration. -/
def ofConfig (config : Config) : Except InvalidOption Options := do
  let attrBans ← option config "attr-bans" (some defaultBans) (names? defaultBans)
  let attrNameStyle ← option config "attr-name-style" (some .dash) style?
  let attrNoDup ← option config "attr-no-dup" true flag?
  let idClassStyle ← option config "id-class-style" none style?
  let idNoDup ← option config "id-no-dup" true flag?
  let indentWidth ← option config "indent-width" 4 (number? 4)
  let attrNewLine ← option config "attr-new-line" 0 (number? 0)
  pure { attrBans, attrNameStyle, attrNoDup, idClassStyle, idNoDup, indentWidth, attrNewLine }

example : numberOfText? "+4" = some 4 := by decide +kernel
example : numberOfText? "-1" = none := by decide +kernel

end Options
end MarkupLint
