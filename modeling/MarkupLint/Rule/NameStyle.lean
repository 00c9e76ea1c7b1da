/-
  Naming styles for attribute names and for the values of `id` and `class`.
-/

namespace MarkupLint

inductive NameStyle where
  /-- a lower-case letter, then lower-case letters and digits -/
  | lowercase
  /-- as `lowercase`, further runs of letters and digits joined by single underscores -/
  | underscore
  /-- as `lowercase`, further runs of letters and digits joined by single dashes -/
  | dash
  /-- a letter, then letters and digits -/
  | camel
  deriving DecidableEq, Repr

namespace NameStyle

def isLower (c : Char) : Bool := 'a' ≤ c && c ≤ 'z'

def isLetter (c : Char) : Bool := isLower c || ('A' ≤ c && c ≤ 'Z')

def isDigit (c : Char) : Bool := '0' ≤ c && c ≤ '9'

/-- The rest of a name whose runs are joined by `sep`; `filled` tells that the run being read has a
    character, which it needs before the next `sep` and before the end. -/
def joined (sep : Char) : Bool → List Char → Bool
  | filled, [] => filled
  | filled, c :: r =>
    if c = sep then filled && joined sep false r
    else (isLower c || isDigit c) && joined sep true r

/-- The style admits the name. -/
def accepts : NameStyle → List Char → Bool
  | _, [] => false
  | .lowercase, c :: r => isLower c && r.all fun d => isLower d || isDigit d
  | .underscore, c :: r => isLower c && joined '_' true r
  | .dash, c :: r => isLower c && joined '-' true r
  | .camel, c :: r => isLetter c && r.all fun d => isLetter d || isDigit d

/-- The name of the style in configurations and messages. -/
def text : NameStyle → String
  | .lowercase => "lowercase"
  | .underscore => "underscore"
  | .dash => "dash"
  | .camel => "camel"

def all : List NameStyle := [.lowercase, .underscore, .dash, .camel]

/-- The style of a name. -/
def ofText? (s : String) : Option NameStyle := all.find? (·.text == s)

example : dash.accepts "data-x1".toList = true := by decide
example : dash.accepts "data--x".toList = false := by decide

end NameStyle
end MarkupLint
