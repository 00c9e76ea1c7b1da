/-
  Tables: finite maps from names to values, kept as lists of entries with each name once. The order
  of the entries is the order in which the names came in; nothing depends on it but listings.
-/

namespace MarkupLint

/-- A finite map from names. -/
abbrev Table (α : Type) := List (String × α)

namespace Table

/-- The value that a name has. -/
def get? (t : Table α) (name : String) : Option α := (t.find? (·.1 == name)).map (·.2)

/-- The table in which `name` has the value `a`. -/
def put (t : Table α) (name : String) (a : α) : Table α :=
  if t.any (·.1 == name) then t.map fun e => if e.1 == name then (name, a) else e
  else t ++ [(name, a)]

/-- The table without `name`. -/
def erase (t : Table α) (name : String) : Table α := t.filter (·.1 != name)

/-- The names of the table. -/
def names (t : Table α) : List String := t.map (·.1)

/-- The entries in the order of their names. -/
def sorted (t : Table α) : Table α := t.mergeSort fun a b => !(b.1 < a.1)

/-- The table of a list of entries, the last entry of a name counting. -/
def ofList (es : List (String × α)) : Table α := es.foldl (fun t e => t.put e.1 e.2) []

end Table
end MarkupLint
