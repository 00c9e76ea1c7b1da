/-
  Line formats: how a linter that prints text says where a problem is. A format is a line with items
  such as `%l` for the line number; it becomes a regular expression for whole lines.
-/
import MarkupLint.Pattern.Reader

namespace MarkupLint.Pattern

/-- Why a format cannot be used. -/
inductive FormatError where
  | invalid
  /-- it ends in the middle of an item -/
  | cut
  deriving DecidableEq, Repr

/-- A format: its matcher, the letter that says what role its lines play, and whether the whole line
    is taken as the text or the line is left out. -/
structure LineFormat where
  matcher : Matcher
  role : Option Char
  whole : Bool
  leftOut : Bool

namespace LineFormat

/-- The regular expressions of the items, by their letters. -/
def itemText? : Char → Option String
  | 'f' => some "(?P<f>(?:[[:alpha:]]:)?(?:\\\\ |[^ ])+?)"
  | 'n' => some "(?P<n>\\d+)"
  | 'l' => some "(?P<l>\\d+)"
  | 'e' => some "(?P<e>\\d+)"
  | 'c' => some "(?P<c>\\d+)"
  | 'k' => some "(?P<k>\\d+)"
  | 'v' => some "(?P<v>\\d+)"
  | 't' => some "(?P<t>.)"
  | 'm' => some "(?P<m>.+)"
  | 'r' => some "(?P<r>.*)"
  | 'p' => some "(?P<p>[- \t.]*)"
  | 's' => some "(?P<s>.+)"
  | _ => none

/-- The letters of roles. -/
def isRole (c : Char) : Bool := "DXAEWICZGOPQ".toList.contains c

/-- The characters that a percent sign lets through to the regular expression. -/
def isBare (c : Char) : Bool := "%\\.^$?+[".toList.contains c

/-- The characters that stand for themselves in a format. -/
def isSpecial (c : Char) : Bool := ".+*()|[\x7b^$".toList.contains c

/-- What the reading of a format has found so far, the regular expression last character first. -/
structure Draft where
  regex : List Char := []
  role : Option Char := none
  whole : Bool := false
  leftOut : Bool := false

namespace Draft

def add (d : Draft) (s : List Char) : Draft := { d with regex := s.reverse ++ d.regex }

end Draft

/-- A `%*` item, given what follows: a class or an escape, any number of times but at least once. -/
def run (d : Draft) (r : List Char) : Except FormatError (Draft × List Char) :=
  match r with
  | [] | ['['] => .error .cut
  | '[' :: r =>
    let body := r.takeWhile (· != ']')
    match r.drop body.length with
    | [] => .error .invalid
    | _ :: rest => .ok (d.add ('[' :: body ++ [']', '+']), rest)
  | ['\\'] => .error .cut
  | '\\' :: c :: rest => .ok (d.add ['\\', c, '+'], rest)
  | _ => .error .invalid

/-- An item, given what follows its percent sign. -/
def item (d : Draft) (r : List Char) : Except FormatError (Draft × List Char) :=
  match r with
  | [] => .error .cut
  | c :: rest =>
    match itemText? c with
    | some t => .ok (d.add t.toList, rest)
    | none =>
      if c = '*' then run d rest
      else
        match rest with
        | x :: rest' =>
          if (c = '+' || c = '-') && isRole x then
            .ok ({ d with
              role := some x
              whole := d.whole || c = '+'
              leftOut := d.leftOut || c = '-' }, rest')
          else plain c rest
        | [] => plain c rest
where
  /-- An item of one character. -/
  plain (c : Char) (rest : List Char) : Except FormatError (Draft × List Char) :=
    if isBare c then .ok (d.add [c], rest)
    else if c = '#' then .ok (d.add ['*'], rest)
    else if isRole c then .ok ({ d with role := some c }, rest)
    else .error .invalid

/-- One character of a format and what is left after it. A backslash lets the next character through
    to the regular expression. -/
def step (d : Draft) (c : Char) (r : List Char) : Except FormatError (Draft × List Char) :=
  if c = '%' then item d r
  else if c = '\\' then
    match r with
    | [] => .ok (d.add [c], [])
    | x :: rest => .ok (d.add [x], rest)
  else if isSpecial c then .ok (d.add ['\\', c], r)
  else .ok (d.add [c], r)

/-- Reads a format, with `skip` characters of the last item still to be passed over. -/
def readFrom : Nat → Draft → List Char → Except FormatError Draft
  | _, d, [] => .ok d
  | n + 1, d, _ :: r => readFrom n d r
  | 0, d, c :: r =>
    match step d c r with
    | .error e => .error e
    | .ok (d, rest) => readFrom (r.length - rest.length) d r

/-- The format of a text. -/
def ofText (s : String) : Except FormatError LineFormat :=
  match readFrom 0 (Draft.add {} ['^']) s.toList with
  | .error e => .error e
  | .ok d =>
    match Matcher.ofText? (d.add ['$']).regex.reverse with
    | none => .error .invalid
    | some m => .ok ⟨m, d.role, d.whole, d.leftOut⟩

end LineFormat
end MarkupLint.Pattern
