/-
  File name patterns: `*` is any run of bytes without a slash, `?` one character other than a slash,
  `[…]` a class of characters, a backslash takes the special meaning from what follows. A malformed
  pattern matches nothing.

  A pattern is cut into segments at its stars. Each segment but the first takes the first place
  where it fits, and the last one has to reach the end of the name.
-/
import MarkupLint.Text.Ascii
import MarkupLint.Text.Utf8

namespace MarkupLint.Glob

/-- One item of a pattern between stars. -/
inductive Item where
  | byte (b : UInt8)
  | any
  | set (negated : Bool) (ranges : List (Char × Char))
  deriving DecidableEq, Repr

/-- An item, or a star. -/
inductive Mark where
  | star
  | item (i : Item)
  deriving DecidableEq, Repr

def openBracket : UInt8 := 91
def closeBracket : UInt8 := 93
def backslash : UInt8 := 92
def caret : UInt8 := 94
def asterisk : UInt8 := 42

/-! ## Reading patterns -/

/-- A member of a class at the front of `s`, and what follows it, which may not be nothing. -/
def member? (s : Bytes) : Option (Char × Bytes) :=
  match s with
  | [] => none
  | b :: r =>
    if b = Ascii.dash || b = closeBracket then none
    else
      let s := if b = backslash then r else s
      match s with
      | [] => none
      | c :: r =>
        match Utf8.sequence? c r with
        | none => none
        | some (ch, n) => if (r.drop n).isEmpty then none else some (ch, r.drop n)

/-- The ranges of a class up to its closing bracket, and what follows. Every range takes a byte, so
    `fuel`, the length of the pattern, is never used up. -/
def ranges? : Nat → List (Char × Char) → Bytes → Option (List (Char × Char) × Bytes)
  | 0, _, _ => none
  | fuel + 1, done, s =>
    if s.head? = some closeBracket && !done.isEmpty then some (done.reverse, s.drop 1)
    else
      match member? s with
      | none => none
      | some (lo, r) =>
        if r.head? = some Ascii.dash then
          match member? (r.drop 1) with
          | none => none
          | some (hi, r) => ranges? fuel ((lo, hi) :: done) r
        else ranges? fuel ((lo, lo) :: done) r

/-- The first mark of a pattern that begins with `b`, and what follows it. -/
def mark? (b : UInt8) (r : Bytes) : Option (Mark × Bytes) :=
  if b = asterisk then some (.star, r)
  else if b = Ascii.question then some (.item .any, r)
  else if b = openBracket then
    let negated := r.head? = some caret
    let s := if negated then r.drop 1 else r
    (ranges? (s.length + 1) [] s).map fun (rs, rest) => (.item (.set negated rs), rest)
  else if b = backslash then
    match r with
    | [] => none
    | c :: r => some (.item (.byte c), r)
  else some (.item (.byte b), r)

/-- The marks of a pattern. Every mark takes a byte, so `fuel`, the length of the pattern, lasts. -/
def marksFrom? : Nat → Bytes → Option (List Mark)
  | _, [] => some []
  | 0, _ :: _ => none
  | fuel + 1, b :: r =>
    match mark? b r with
    | none => none
    | some (m, rest) => (marksFrom? fuel rest).map (m :: ·)

/-- The marks of a pattern, `none` when it is malformed. -/
def marks? (pattern : Bytes) : Option (List Mark) := marksFrom? pattern.length pattern

/-! ## Matching -/

/-- The character at the front of a name and the number of bytes that it takes. -/
def decode (b : UInt8) (r : Bytes) : Char × Nat :=
  match Utf8.sequence? b r with
  | some (c, n) => (c, n + 1)
  | none => (Utf8.replacement, 1)

/-- What an item leaves of a name that it fits at the front. -/
def Item.rest? (i : Item) : Bytes → Option Bytes
  | [] => none
  | b :: r =>
    match i with
    | .byte c => if b = c then some r else none
    | .any => if b = Ascii.slash then none else some ((b :: r).drop (decode b r).2)
    | .set negated rs =>
      let (c, n) := decode b r
      if rs.any (fun (lo, hi) => lo ≤ c && c ≤ hi) = negated then none else some ((b :: r).drop n)

/-- What a segment leaves of a name that it fits at the front. -/
def segmentRest? (segment : List Item) (name : Bytes) : Option Bytes :=
  segment.foldlM (fun name i => i.rest? name) name

/-- What a segment after a star leaves of a name, at the first place where it fits; the last segment
    fits only where it leaves nothing. -/
def afterStar? (segment : List Item) (last : Bool) : Bytes → Option Bytes
  | [] => (segmentRest? segment []).filter fun t => !last || t.isEmpty
  | b :: r =>
    match (segmentRest? segment (b :: r)).filter fun t => !last || t.isEmpty with
    | some t => some t
    | none => if b = Ascii.slash then none else afterStar? segment last r

/-- The segments of a list of marks: the one before the first star, and those after stars, stars in
    a row counting as one. -/
def segments : List Mark → List Item × List (List Item)
  | [] => ([], [])
  | .item i :: ms =>
    let (first, rest) := segments ms
    (i :: first, rest)
  | .star :: ms =>
    let (first, rest) := segments ms
    ([], match first, rest with
      | [], _ :: _ => rest
      | _, _ => first :: rest)

/-- The segments after stars match the rest of a name. -/
def matchesRest : List (List Item) → Bytes → Bool
  | [], name => name.isEmpty
  | [[]], name => !name.contains Ascii.slash
  | segment :: rest, name =>
    match afterStar? segment rest.isEmpty name with
    | some t => matchesRest rest t
    | none => false

/-- The pattern matches the whole name. -/
def accepts (pattern name : Bytes) : Bool :=
  match marks? pattern with
  | none => false
  | some ms =>
    let (first, rest) := segments ms
    match segmentRest? first name with
    | some t => matchesRest rest t
    | none => false

end MarkupLint.Glob
