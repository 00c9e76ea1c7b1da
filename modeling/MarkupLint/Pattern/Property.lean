/-
  Properties of characters that a regular expression can ask for by name: the categories and scripts
  of the Unicode character data, and a few sets besides. Names are the same up to letter case,
  blanks, dashes and underscores.
-/
import MarkupLint.Pattern.CharSet
import MarkupLint.Text.Category
import MarkupLint.Text.Script

namespace MarkupLint.Pattern.Property

/-- What counts in a name. -/
def essence (name : List Char) : List Char :=
  (name.filter fun c => c ≠ '_' && c ≠ '-' && c ≠ ' ').map Char.toLower

/-- The greatest code point. -/
def maxCode : Nat := 0x10FFFF

/-- The sets that are neither categories nor scripts. -/
def special? (isName : String → Bool) : Option CharClass :=
  if isName "Any" then some ⟨false, [⟨0, maxCode, 1⟩]⟩
  else if isName "Assigned" then some ⟨true, Category.unassigned.codes⟩
  else if isName "ASCII" then some ⟨false, [⟨0, 127, 1⟩]⟩
  else none

/-- The code points of a category or a family of categories. -/
def categoryCodes? (isName : String → Bool) : Option CodeSet :=
  match Category.all.find? (·.names.any isName) with
  | some c => some c.codes
  | none => (Category.families.find? (·.1.any isName)).map (·.2.flatMap Category.codes)

/-- The class of the characters with the property of a name. A caret in front of the name means all
    others. -/
def named? (name : List Char) : Option CharClass :=
  let negated := name.head? = some '^'
  let wanted := essence (if negated then name.drop 1 else name)
  let isName (s : String) : Bool := essence s.toList == wanted
  let found := (special? isName).or <|
    ((categoryCodes? isName).or (Script.codes? isName)).map fun codes => ⟨false, codes⟩
  found.map fun k => { k with negated := k.negated != negated }

/-- The class of a property, given what follows the backslash and its letter, and what follows it: a
    name of one character, or one in braces. -/
def read? (negated : Bool) (s : List Char) : Option (CharClass × List Char) := do
  let (name, rest) ← match s with
    | [] => none
    | '\x7b' :: r =>
      let name := r.takeWhile (· != '\x7d')
      if name.length < r.length then some (name, r.drop (name.length + 1)) else none
    | c :: r => some ([c], r)
  let k ← named? name
  pure ({ k with negated := k.negated != negated }, rest)

end MarkupLint.Pattern.Property
