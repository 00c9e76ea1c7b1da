/-
  White space as Unicode sees it (the White_Space property), and the two things done with it:
  cutting it off the ends of a text and splitting a text into words.
-/
import MarkupLint.Text.Utf8

namespace MarkupLint.Blank

/-- A character with the White_Space property. -/
def isBlank (c : Char) : Bool :=
  let n := c.val.toNat
  (9 ≤ n && n ≤ 13) || n == 32 || n == 0x85 || n == 0xA0 || n == 0x1680 ||
  (0x2000 ≤ n && n ≤ 0x200A) || n == 0x2028 || n == 0x2029 || n == 0x202F || n == 0x205F ||
  n == 0x3000

/-- The characters without the white space at both ends. -/
def trimChars (cs : List Char) : List Char :=
  (((cs.dropWhile isBlank).reverse).dropWhile isBlank).reverse

/-- The string without the white space at both ends. -/
def trim (s : String) : String := String.ofList (trimChars s.toList)

/-- The line holds nothing but white space. -/
def isBlankLine (s : Bytes) : Bool := (Utf8.chars s).all isBlank

/-- The words of a text: `word` is the one being read. -/
def wordsFrom (word : List Char) : List Char → List (List Char)
  | [] => if word.isEmpty then [] else [word]
  | c :: r =>
    if isBlank c then
      if word.isEmpty then wordsFrom [] r else word :: wordsFrom [] r
    else wordsFrom (word ++ [c]) r

/-- The maximal runs of characters that are not white space, in order. -/
def words (cs : List Char) : List (List Char) := wordsFrom [] cs

example : words " a  bc ".toList = [['a'], ['b', 'c']] := by decide
example : trim "\t x y \n" = "x y" := by decide

end MarkupLint.Blank
