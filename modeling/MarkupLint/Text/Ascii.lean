/-
  Classes of ASCII bytes. All of them are false on bytes from 128 up, so they are safe on the raw
  form of a text: a byte of a longer character never falls into one.
-/
import MarkupLint.Text.Bytes

namespace MarkupLint.Ascii

/-- The five white-space bytes of markup: space, tab, line feed, form feed, carriage return. -/
def isSpace (b : UInt8) : Bool := b = 32 || b = 9 || b = 10 || b = 12 || b = 13

def isUpper (b : UInt8) : Bool := 65 ≤ b && b ≤ 90

def isLower (b : UInt8) : Bool := 97 ≤ b && b ≤ 122

def isLetter (b : UInt8) : Bool := isUpper b || isLower b

def isDigit (b : UInt8) : Bool := 48 ≤ b && b ≤ 57

def isHexDigit (b : UInt8) : Bool := isDigit b || (65 ≤ b && b ≤ 70) || (97 ≤ b && b ≤ 102)

/-- `A` to `Z` become `a` to `z`, every other byte stays. -/
def lower (b : UInt8) : UInt8 := if isUpper b then b + 32 else b

/-- `a` to `z` become `A` to `Z`, every other byte stays. -/
def upper (b : UInt8) : UInt8 := if isLower b then b - 32 else b

/-- The bytes of markup that carry syntax. -/
def lessThan : UInt8 := 60
def greaterThan : UInt8 := 62
def slash : UInt8 := 47
def equals : UInt8 := 61
def quote : UInt8 := 34
def apostrophe : UInt8 := 39
def dash : UInt8 := 45
def bang : UInt8 := 33
def question : UInt8 := 63

/-- The text with its ASCII letters in lower case. -/
def lowerAll (s : Bytes) : Bytes := s.map lower

/-- `s` starts with `word`, letter case aside; `word` is given in lower case. -/
def startsWithWord (word s : Bytes) : Bool := word.isPrefixOf ((s.take word.length).map lower)

example : lowerAll (Bytes.ofString "<Pre>") = Bytes.ofString "<pre>" := by decide

end MarkupLint.Ascii
