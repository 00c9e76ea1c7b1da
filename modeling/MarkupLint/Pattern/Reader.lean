/-
  Reading regular expressions. A text that is no regular expression is refused: an open group or
  class, a repetition of nothing, two repetitions in a row, a range turned round, an unknown escape
  or property, too deep a nesting.

  The reader takes the text character by character and holds the groups that are still open on a
  stack.
-/
import MarkupLint.Pattern.Property
import MarkupLint.Pattern.Regex

namespace MarkupLint.Pattern

/-- What the letters of `(?imsU)` turn on. -/
structure Flags where
  /-- letter case does not count -/
  folded : Bool := false
  /-- `^` and `$` also match at line ends inside the text -/
  lines : Bool := false
  /-- the dot also matches a newline -/
  dotAll : Bool := false
  /-- repetitions are short unless they end in `?` -/
  short : Bool := false
  deriving DecidableEq, Repr

namespace Flags

/-- Turns the flag of a letter on or off; `none` when the letter is none. -/
def set? (f : Flags) (on : Bool) : Char → Option Flags
  | 'i' => some { f with folded := on }
  | 'm' => some { f with lines := on }
  | 's' => some { f with dotAll := on }
  | 'U' => some { f with short := on }
  | _ => none

end Flags

/-! ## Escapes and classes -/

def octalValue? (c : Char) : Option Nat :=
  if '0' ≤ c && c ≤ '7' then some (c.toNat - '0'.toNat) else none

def hexDigitValue? (c : Char) : Option Nat :=
  if '0' ≤ c && c ≤ '9' then some (c.toNat - '0'.toNat)
  else if 'a' ≤ c && c ≤ 'f' then some (c.toNat - 'a'.toNat + 10)
  else if 'A' ≤ c && c ≤ 'F' then some (c.toNat - 'A'.toNat + 10)
  else none

/-- Up to `n` further octal digits after the value so far. -/
def octal (value : Nat) : Nat → List Char → Nat × List Char
  | n + 1, c :: r =>
    match octalValue? c with
    | some v => octal (value * 8 + v) n r
    | none => (value, c :: r)
  | _, r => (value, r)

/-- Hexadecimal digits up to a closing brace. -/
def braced? (value : Nat) (some? : Bool) : List Char → Option (Nat × List Char)
  | [] => none
  | c :: r =>
    if c = '\x7d' then if some? then some (value, r) else none
    else
      match hexDigitValue? c with
      | some v => if 0x10FFFF < value * 16 + v then none else braced? (value * 16 + v) true r
      | none => none

/-- The code point that an escape stands for, `r` following the backslash, and what follows. -/
def escape? : List Char → Option (Nat × List Char)
  | [] => none
  | c :: r =>
    match octalValue? c with
    | some v => if v = 0 || ((r.head?.bind octalValue?).isSome) then some (octal v 2 r) else none
    | none =>
      if c = 'x' then
        match r with
        | '\x7b' :: r => braced? 0 false r
        | a :: b :: rest =>
          match hexDigitValue? a, hexDigitValue? b with
          | some x, some y => some (x * 16 + y, rest)
          | _, _ => none
        | _ => none
      else if c = 'a' then some (7, r)
      else if c = 'f' then some (12, r)
      else if c = 'n' then some (10, r)
      else if c = 'r' then some (13, r)
      else if c = 't' then some (9, r)
      else if c = 'v' then some (11, r)
      else if c.val < 128 && !c.isAlphanum then some (c.toNat, r)
      else none

/-- One code point of a class and what follows. -/
def classCode? : List Char → Option (Nat × List Char)
  | [] => none
  | '\\' :: r => escape? r
  | c :: r => some (c.toNat, r)

/-- What stands before the first `:]` and what follows it. -/
def beforeColonBracket? : List Char → Option (List Char × List Char)
  | ':' :: ']' :: r => some ([], r)
  | c :: r => (beforeColonBracket? r).map fun (n, rest) => (c :: n, rest)
  | [] => none

/-- The class that a backslash and a letter begin, and what follows: one of the class letters, or a
    property. `none` when the letter begins no class, `some none` when it should but there is
    none. -/
def escapedClass? (letter : Char) (r : List Char) : Option (Option (CharClass × List Char)) :=
  if letter = 'p' || letter = 'P' then some (Property.read? (letter = 'P') r)
  else (letterClass? letter).map fun k => some (k, r)

/-- One item of a class, and what follows: a named class, a class letter, a property, a character or
    a range. -/
def classItem? (s : List Char) : Option (CharClass × List Char) :=
  let single : Option (CharClass × List Char) := do
    let (low, r) ← classCode? s
    match r with
    | '-' :: c :: r' =>
      if c = ']' then some (.single low, r)
      else
        let (high, rest) ← classCode? (c :: r')
        if high < low then none else some (⟨false, [⟨low, high, 1⟩]⟩, rest)
    | _ => some (.single low, r)
  match s with
  | '[' :: ':' :: r =>
    match beforeColonBracket? r with
    | some (name, rest) => (namedClass? name).map fun k => (k, rest)
    | none => single
  | '\\' :: c :: r => (escapedClass? c r).getD single
  | _ => single

/-- The items of a class up to its closing bracket, and what follows. A bracket right at the
    beginning is an item. Every item takes a character, so `fuel`, the length of the text, lasts. -/
def classItems? : Nat → Bool → List Char → Option (List CharClass × List Char)
  | 0, _, _ => none
  | fuel + 1, first, s =>
    if s.head? = some ']' && !first then some ([], s.drop 1)
    else
      match classItem? s with
      | none => none
      | some (k, rest) => (classItems? fuel false rest).map fun (ks, r) => (k :: ks, r)

/-- The set of a class, given what follows its opening bracket, and what follows it. -/
def classSet? (folded : Bool) (s : List Char) : Option (CharSet × List Char) :=
  let negated := s.head? = some '^'
  let s := if negated then s.drop 1 else s
  (classItems? (s.length + 1) true s).map fun (ks, rest) => (⟨negated, folded, ks⟩, rest)

/-! ## Repetition counts -/

/-- Counts go up to this number. -/
def maxCount : Nat := 1000

/-- A number without leading zeros and what follows. -/
def count? (s : List Char) : Option (Nat × List Char) :=
  let ds := s.takeWhile fun c => '0' ≤ c && c ≤ '9'
  if ds.isEmpty || (1 < ds.length && ds.head? = some '0') then none
  else some (ds.foldl (fun n c => n * 10 + (c.toNat - '0'.toNat)) 0, s.drop ds.length)

/-- The counts of a repetition, given what follows its opening brace; `none` when it is none. -/
def counts? (s : List Char) : Option (Nat × Option Nat × List Char) := do
  let (min, r) ← count? s
  match r with
  | '\x7d' :: rest => some (min, some min, rest)
  | ',' :: '\x7d' :: rest => some (min, none, rest)
  | ',' :: r =>
    let (max, r) ← count? r
    match r with
    | '\x7d' :: rest => some (min, some max, rest)
    | _ => none
  | _ => none

/-! ## The reader -/

/-- A group that is still open: its number when it captures, the flags before it, the alternatives
    that are complete and the items of the one being read, the latest first. -/
structure OpenGroup where
  number : Option Nat
  flags : Flags
  alternatives : List Regex
  items : List Regex

/-- The items in order. -/
def sequence (items : List Regex) : Regex :=
  match items with
  | [] => .empty
  | last :: before => before.foldl (fun r a => .seq a r) last

namespace OpenGroup

/-- What has been read of the group. -/
def regex (g : OpenGroup) : Regex :=
  g.alternatives.foldl (fun r a => .alt a r) (sequence g.items)

/-- The group with a further item. -/
def push (g : OpenGroup) (r : Regex) : OpenGroup := { g with items := r :: g.items }

end OpenGroup

/-- The state of the reader: the innermost group, the groups around it, the flags in force, the
    names of the captures so far with the latest first, and whether a repetition was read last. -/
structure Reading where
  top : OpenGroup
  outer : List OpenGroup
  flags : Flags
  names : List String
  repeated : Bool

namespace Reading

def start : Reading := ⟨⟨none, {}, [], []⟩, [], {}, [], false⟩

def push (st : Reading) (r : Regex) : Reading := { st with top := st.top.push r, repeated := false }

/-- Opens a group. -/
def openGroup (st : Reading) (name : Option String) (flags : Flags) : Reading :=
  { st with
    top := ⟨name.map fun _ => st.names.length, st.flags, [], []⟩
    outer := st.top :: st.outer
    flags := flags
    names := name.toList ++ st.names
    repeated := false }

/-- Closes the innermost group; `none` when there is none. -/
def closeGroup? (st : Reading) : Option Reading :=
  match st.outer with
  | [] => none
  | g :: outer =>
    let r := match st.top.number with
      | some n => .group n st.top.regex
      | none => st.top.regex
    some { st with top := g.push r, outer := outer, flags := st.top.flags, repeated := false }

/-- Begins the next alternative. -/
def nextAlternative (st : Reading) : Reading :=
  { st with
    top := { st.top with alternatives := sequence st.top.items :: st.top.alternatives, items := [] }
    repeated := false }

/-- Repeats the last item; `none` when there is none or it was just repeated. `r` follows, and a `?`
    there turns the preference round. -/
def repeat? (st : Reading) (r : List Char) (make : Bool → Regex → Regex) :
    Option (Reading × List Char) :=
  let short := r.head? = some '?'
  let rest := if short then r.drop 1 else r
  match st.top.items with
  | [] => none
  | last :: before =>
    if st.repeated then none
    else
      let item := make (short == st.flags.short) last
      if item.countsWithin maxCount then
        some ({ st with top := { st.top with items := item :: before }, repeated := true }, rest)
      else none

/-- The flags of a group, and what follows: `true` when a group is opened, `false` when only the
    flags change. `negative` tells that a dash was read, `seen` that a letter was read since. -/
def flags? (f : Flags) (negative seen : Bool) : List Char → Option (Flags × Bool × List Char)
  | [] => none
  | c :: r =>
    if c = ':' || c = ')' then if negative && !seen then none else some (f, c = ':', r)
    else if c = '-' then if negative then none else flags? f true false r
    else
      match f.set? (!negative) c with
      | some f => flags? f negative true r
      | none => none

/-- A name up to a closing angle bracket, and what follows. -/
def name? (s : List Char) : Option (String × List Char) :=
  let n := s.takeWhile (· != '>')
  match s.drop n.length with
  | [] => none
  | _ :: rest =>
    if !n.isEmpty && n.all isWord then some (String.ofList n, rest) else none

/-- An opening parenthesis, given what follows it. -/
def open? (st : Reading) (r : List Char) : Option (Reading × List Char) :=
  match r with
  | '?' :: 'P' :: '<' :: r => (name? r).map fun (n, rest) => (st.openGroup (some n) st.flags, rest)
  | '?' :: '<' :: r => (name? r).map fun (n, rest) => (st.openGroup (some n) st.flags, rest)
  | '?' :: r =>
    (flags? st.flags false false r).map fun (f, opens, rest) =>
      (if opens then st.openGroup none f else { st with flags := f, repeated := false }, rest)
  | _ => some (st.openGroup (some "") st.flags, r)

/-- The literal text of `\Q…\E`, and what follows. -/
def literal : List Char → List Char × List Char
  | '\\' :: 'E' :: r => ([], r)
  | c :: r =>
    let (t, rest) := literal r
    (c :: t, rest)
  | [] => ([], [])

/-- A backslash, given what follows it. -/
def backslash? (st : Reading) (r : List Char) : Option (Reading × List Char) :=
  match r with
  | 'A' :: r => some (st.push (.assert .textStart), r)
  | 'z' :: r => some (st.push (.assert .textEnd), r)
  | 'b' :: r => some (st.push (.assert .wordEdge), r)
  | 'B' :: r => some (st.push (.assert .noWordEdge), r)
  | 'Q' :: r =>
    let (t, rest) := literal r
    some (t.foldl (fun st c => st.push (.one (.single st.flags.folded c.toNat)))
      { st with repeated := false }, rest)
  | c :: rest =>
    match escapedClass? c rest with
    | some item =>
      item.map fun (k, rest) => (st.push (.one ⟨false, st.flags.folded, [k]⟩), rest)
    | none =>
      (escape? r).map fun (n, rest) => (st.push (.one (.single st.flags.folded n)), rest)
  | [] => none

/-- One step: the character `c`, followed by `r`; the result says what is left. -/
def step? (st : Reading) (c : Char) (r : List Char) : Option (Reading × List Char) :=
  if c = '(' then st.open? r
  else if c = ')' then st.closeGroup?.map (·, r)
  else if c = '|' then some (st.nextAlternative, r)
  else if c = '^' then
    some (st.push (.assert (if st.flags.lines then .lineStart else .textStart)), r)
  else if c = '$' then some (st.push (.assert (if st.flags.lines then .lineEnd else .textEnd)), r)
  else if c = '.' then some (st.push (.one (.any st.flags.dotAll)), r)
  else if c = '[' then
    (classSet? st.flags.folded r).map fun (s, rest) => (st.push (.one s), rest)
  else if c = '*' then st.repeat? r .star
  else if c = '+' then st.repeat? r .plus
  else if c = '?' then st.repeat? r .opt
  else if c = '\x7b' then
    match counts? r with
    | none => some (st.push (.one (.single st.flags.folded c.toNat)), r)
    | some (min, max, rest) =>
      if maxCount < min || (max.map fun m => maxCount < m || m < min).getD false then none
      else st.repeat? rest fun greedy a => .times greedy min max a
  else if c = '\\' then st.backslash? r
  else some (st.push (.one (.single st.flags.folded c.toNat)), r)

/-- Reads a text, with `skip` characters of the last step still to be passed over. -/
def readFrom : Nat → Reading → List Char → Option Reading
  | _, st, [] => some st
  | n + 1, st, _ :: r => readFrom n st r
  | 0, st, c :: r =>
    match st.step? c r with
    | none => none
    | some (st, rest) => readFrom (r.length - rest.length) st r

end Reading

/-- An expression may be nested this deep. -/
def maxHeight : Nat := 1000

/-- The matcher of a regular expression; `none` when the text is none. -/
def Matcher.ofText? (s : List Char) : Option Matcher :=
  match Reading.readFrom 0 .start s with
  | some st =>
    let r := st.top.regex
    if st.outer.isEmpty && r.height ≤ maxHeight then some ⟨r.program, st.names.reverse⟩ else none
  | none => none

end MarkupLint.Pattern
