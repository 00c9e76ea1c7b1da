/-
  Rule configurations: a table from option names to values. A configuration file is a JSON object,
  so its numbers are doubles; a configuration made by a program may also hold integers and lists of
  strings as such.
-/
import MarkupLint.Json.Value
import MarkupLint.Table

namespace MarkupLint

/-- The value of an option. -/
inductive ConfigValue where
  | null
  | bool (b : Bool)
  | number (x : Binary64)
  | integer (n : Int)
  | text (s : String)
  | texts (ss : List String)
  | list (vs : List ConfigValue)
  | object (members : List (String × ConfigValue))
  deriving Repr, Inhabited

/-- A rule configuration. -/
abbrev Config := Table ConfigValue

namespace ConfigValue

mutual

/-- The configuration value of a JSON value: of members with one name the last counts, and members
    stand in the order of their names. `none` when a number is beyond the range of doubles. -/
def ofJson? : Json → Option ConfigValue
  | .null => some .null
  | .bool b => some (.bool b)
  | .num n => n.toBinary64?.map .number
  | .str s => some (.text s)
  | .arr vs => (ofElements? vs).map .list
  | .obj ms => (ofMembers? ms).map fun ms => .object (Table.ofList ms).sorted

/-- The values of the elements of a list. -/
def ofElements? : List Json → Option (List ConfigValue)
  | [] => some []
  | v :: vs => do
    let a ← ofJson? v
    let as ← ofElements? vs
    pure (a :: as)

/-- The values of the members of an object. -/
def ofMembers? : List (String × Json) → Option (List (String × ConfigValue))
  | [] => some []
  | (k, v) :: ms => do
    let a ← ofJson? v
    let as ← ofMembers? ms
    pure ((k, a) :: as)

end

/-! ## Values in messages -/

/-- Numbers in messages: positional from 0.0001 up to below a million. -/
def numberLayout : DecimalLayout := ⟨-4, 6, 2⟩

/-- A number as it stands in a message. -/
def numberText : Binary64 → String
  | .nan => "NaN"
  | .infinite false => "+Inf"
  | .infinite true => "-Inf"
  | .finite negative m e => (Shortest.ofFinite negative m e).render numberLayout

/-- An integer in decimal. -/
def integerText (n : Int) : String :=
  String.ofList ((if n < 0 then ['-'] else []) ++ Nat.toDigits 10 n.natAbs)

mutual

/-- A value as it stands in a message: strings bare, lists in brackets with blanks between, objects
    as `map[…]`. -/
def message : ConfigValue → String
  | .null => "<nil>"
  | .bool true => "true"
  | .bool false => "false"
  | .number x => numberText x
  | .integer n => integerText n
  | .text s => s
  | .texts ss => "[" ++ " ".intercalate ss ++ "]"
  | .list vs => "[" ++ " ".intercalate (messages vs) ++ "]"
  | .object ms => "map[" ++ " ".intercalate (memberMessages ms) ++ "]"

/-- The elements of a list in messages. -/
def messages : List ConfigValue → List String
  | [] => []
  | v :: vs => v.message :: messages vs

/-- The members of an object in messages. -/
def memberMessages : List (String × ConfigValue) → List String
  | [] => []
  | (k, v) :: ms => (k ++ ":" ++ v.message) :: memberMessages ms

end

end ConfigValue
end MarkupLint
