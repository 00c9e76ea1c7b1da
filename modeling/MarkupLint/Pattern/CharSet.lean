/-
  Sets of characters, as they stand in regular expressions: ranges, named classes, and their
  complements. Ranges are of code points, so that one may go past those that are no characters.
-/
import MarkupLint.Text.CaseFold
import MarkupLint.Text.CodeSet

namespace MarkupLint.Pattern

/-- Code points of some ranges, or all others. -/
structure CharClass where
  negated : Bool
  codes : CodeSet
  deriving DecidableEq, Repr

namespace CharClass

/-- One code point. -/
def single (n : Nat) : CharClass := ⟨false, [.single n]⟩

/-- A class covers one of the code points. The complement of a class covers none of them. -/
def coversAny (k : CharClass) (ns : List Nat) : Bool := ns.any k.codes.covers != k.negated

end CharClass

/-- A set: the characters of some classes, or all others; with `folded` letter case does not
    count. -/
structure CharSet where
  negated : Bool
  folded : Bool
  classes : List CharClass
  deriving DecidableEq, Repr

namespace CharSet

/-- Where letter case does not count, a character is in a class when one that differs from it in
    letter case only is, and in its complement when none is. -/
def contains (s : CharSet) (c : Char) : Bool :=
  let candidates := if s.folded then CaseFold.variants c.toNat else [c.toNat]
  (s.classes.any (·.coversAny candidates)) != s.negated

/-- One code point. -/
def single (folded : Bool) (n : Nat) : CharSet := ⟨false, folded, [.single n]⟩

/-- Every character, or every character but a newline. -/
def any (newline : Bool) : CharSet :=
  if newline then ⟨true, false, []⟩ else ⟨true, false, [.single '\n'.toNat]⟩

/-- The code point of a set of one, and whether letter case counts in it. -/
def single? (s : CharSet) : Option (Nat × Bool) :=
  match s with
  | ⟨false, folded, [⟨false, [⟨first, last, _⟩]⟩]⟩ =>
    if first = last then some (first, folded) else none
  | _ => none

end CharSet

/-! ## Named classes -/

def digits : CodeSet := [.between '0' '9']
def spaces : CodeSet := [.between '\t' '\n', .between '\x0c' '\r', .between ' ' ' ']
def wordCodes : CodeSet := [.between '0' '9', .between 'A' 'Z', .between '_' '_', .between 'a' 'z']

/-- A character of a word. -/
def isWord (c : Char) : Bool := wordCodes.covers c.toNat

/-- The class that a backslash and a letter stand for: a digit, a blank, a character of a word, or
    with a capital letter anything else. -/
def letterClass? : Char → Option CharClass
  | 'd' => some ⟨false, digits⟩
  | 'D' => some ⟨true, digits⟩
  | 's' => some ⟨false, spaces⟩
  | 'S' => some ⟨true, spaces⟩
  | 'w' => some ⟨false, wordCodes⟩
  | 'W' => some ⟨true, wordCodes⟩
  | _ => none

/-- The code points of a class named between `[:` and `:]`. -/
def namedCodes? : String → Option CodeSet
  | "alnum" => some [.between '0' '9', .between 'A' 'Z', .between 'a' 'z']
  | "alpha" => some [.between 'A' 'Z', .between 'a' 'z']
  | "ascii" => some [.between '\x00' '\x7f']
  | "blank" => some [.between '\t' '\t', .between ' ' ' ']
  | "cntrl" => some [.between '\x00' '\x1f', .between '\x7f' '\x7f']
  | "digit" => some digits
  | "graph" => some [.between '!' '~']
  | "lower" => some [.between 'a' 'z']
  | "print" => some [.between ' ' '~']
  | "punct" => some [.between '!' '/', .between ':' '@', .between '[' '\x60', .between '\x7b' '~']
  | "space" => some [.between '\t' '\r', .between ' ' ' ']
  | "upper" => some [.between 'A' 'Z']
  | "word" => some wordCodes
  | "xdigit" => some [.between '0' '9', .between 'A' 'F', .between 'a' 'f']
  | _ => none

/-- The class of a name; a caret in front means all other characters. -/
def namedClass? (name : List Char) : Option CharClass :=
  match name with
  | '^' :: rest => (namedCodes? (String.ofList rest)).map fun codes => ⟨true, codes⟩
  | _ => (namedCodes? (String.ofList name)).map fun codes => ⟨false, codes⟩

end MarkupLint.Pattern
