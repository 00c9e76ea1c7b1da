/-
  Which characters are written as themselves inside a quoted text: letters, marks, numbers,
  punctuation and symbols of the Unicode character data, and the plain space. Every other character
  (controls, format characters, all other spaces, private use, unassigned) is written as an escape.
-/
import MarkupLint.Text.Category

namespace MarkupLint.Printable

/-- The families of printable categories, by their short names. -/
def families : List String := ["L", "M", "N", "P", "S"]

/-- The printable categories. -/
def categories : List Category :=
  (Category.families.filter fun f => f.1.any families.contains).flatMap (·.2)

/-- The printable code points apart from the space. -/
def codes : CodeSet := categories.flatMap Category.codes

/-- The character is written as itself in a quoted text. -/
def ofChar (c : Char) : Bool :=
  if c.toNat < 128 then 32 ≤ c.toNat && c.toNat < 127 else codes.covers c.toNat

end MarkupLint.Printable
