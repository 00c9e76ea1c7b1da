/-
  Entries: what the lines of a linter's output say, read with a list of formats. Most formats make
  an entry of one line. A format with the role `A`, `E`, `W` or `I` begins an entry that lines of
  the roles `C` and `Z` go on with and end.
-/
import MarkupLint.Number.Word
import MarkupLint.Pattern.LineFormat
import MarkupLint.Text.Bytes
import MarkupLint.Text.Utf8

namespace MarkupLint.Pattern

/-- An entry. Numbers are zero when the line does not give them. -/
structure LineEntry where
  number : Int := 0
  line : Int := 0
  column : Int := 0
  text : List Char := []
  /-- the line was a message, not noise -/
  valid : Bool := true
  deriving DecidableEq, Repr

/-! ## Numbers -/

/-- The number that a text spells in decimal, cut off at the ends of the 64-bit range; zero when it
    spells none. -/
def numberOf (s : List Char) : Int :=
  let value (ds : List Char) : Option Int :=
    if ds.isEmpty || !ds.all (fun c => '0' ≤ c && c ≤ '9') then none
    else some (ds.foldl (fun n c => n * 10 + (c.toNat - '0'.toNat)) 0 : Nat)
  match s with
  | '-' :: ds => ((value ds).map fun n => max (-n) min64).getD 0
  | '+' :: ds => ((value ds).map fun n => min n max64).getD 0
  | ds => ((value ds).map fun n => min n max64).getD 0

/-- The column that a pointer line stands for: one past its length, a tab going on to the next
    multiple of eight. -/
def pointerColumn (s : List Char) : Int :=
  (s.foldl (fun (col : Nat) c =>
    let col := col + 1
    if c = '\t' then col + 7 - (col + 7) % 8 else col) 0 : Nat) + 1

/-- What was captured under a name, by the last capture of that name. -/
def captured (cs : List (String × List Char)) (name : String) : List Char :=
  ((cs.reverse.find? (·.1 == name)).map (·.2)).getD []

/-- A capture of a message type is empty, so that there is no letter to take from it. -/
def lacksType (cs : List (String × List Char)) : Bool := cs.any fun c => c.1 == "t" && c.2.isEmpty

/-- The entry of a line that a format matched. -/
def LineEntry.ofCaptures (f : LineFormat) (line : List Char) (rescan : Bool)
    (cs : List (String × List Char)) : LineEntry :=
  let column := numberOf (captured cs "c")
  let pointer := captured cs "p"
  let column := if pointer.isEmpty then column else pointerColumn pointer
  let virtual := numberOf (captured cs "v")
  { number := numberOf (captured cs "n")
    line := numberOf (captured cs "l")
    column := if virtual ≠ 0 then virtual else column
    text := if f.whole && !rescan then line else captured cs "m" }

namespace LineEntry

/-- An entry with what a further line of it says. -/
def merge (e more : LineEntry) : LineEntry :=
  { e with
    text := if !e.text.isEmpty && !more.text.isEmpty then e.text ++ '\n' :: more.text
      else e.text ++ more.text
    number := if e.number < 1 then more.number else e.number
    line := if e.line = 0 then more.line else e.line
    column := if e.column = 0 then more.column else e.column }

end LineEntry

/-! ## The scan -/

/-- The state of a scan: inside an entry of several lines, such an entry is left out, all entries so
    far with the latest first, and one of them still waits to be given out. -/
structure LineScan where
  multiline : Bool := false
  ignoring : Bool := false
  entries : List LineEntry := []
  pending : Bool := false

namespace LineScan

/-- Formats that go on with an entry count only inside one, and formats for file names count only
    once a line. -/
def applies (st : LineScan) (rescan : Bool) (f : LineFormat) : Bool :=
  match f.role with
  | some c =>
    if c = 'C' || c = 'Z' then st.multiline
    else if c = 'O' || c = 'P' || c = 'Q' then !rescan else true
  | none => true

/-- The first format that matches the line, what it captured, and the formats from it on. -/
def match? (st : LineScan) (rescan : Bool) (line : List Char) :
    List LineFormat → Option (LineFormat × List (String × List Char) × List LineFormat)
  | [] => none
  | f :: fs =>
    if st.applies rescan f then
      match f.matcher.captures? line with
      | some cs => some (f, cs, f :: fs)
      | none => st.match? rescan line fs
    else st.match? rescan line fs

/-- Takes an entry into the list. Inside an entry of several lines it waits, and the one that waited
    before it is given out; else it is given out at once. -/
def add (st : LineScan) (e : LineEntry) : LineScan × Option LineEntry :=
  let next := { st with entries := e :: st.entries }
  if st.multiline then
    ({ next with pending := true }, if st.pending then st.entries.head? else none)
  else (next, some e)

/-- What becomes of a line that a format matched. Lines about directories stay in the list whatever
    the format says. `none` in place of the state means that an entry was ended where there is
    none. -/
def take (st : LineScan) (f : LineFormat) (e : LineEntry) (named : Bool) :
    Option (LineScan × Option LineEntry) :=
  let finish (st : LineScan) (e : LineEntry) : Option (LineScan × Option LineEntry) :=
    if f.leftOut then some ({ st with ignoring := st.ignoring || st.multiline }, none)
    else some (st.add e)
  match f.role with
  | none => finish st e
  | some c =>
    if c = 'D' || c = 'X' then
      some (if c = 'D' && !named then (st, none) else st.add { e with valid := false })
    else if c = 'A' || c = 'E' || c = 'W' || c = 'I' then
      finish { st with multiline := true, ignoring := false } e
    else if c = 'C' || c = 'Z' then
      let entries := match st.entries with
        | last :: rest => if st.ignoring then st.entries else last.merge e :: rest
        | [] => []
      if c = 'C' then some ({ st with entries }, none)
      else
        match entries with
        | [] => none
        | last :: _ => some (⟨false, false, entries, false⟩, some last)
    else if c = 'O' || c = 'P' || c = 'Q' then finish st { e with valid := false }
    else finish st e

/-- One line further. A line that no format matches ends an entry of several lines. When a format
    for file names leaves a rest of the line, that rest is read in its place. `none` when an entry
    was ended where there is none, or a type is missing. -/
def step (formats : List LineFormat) (st : LineScan) (line : List Char) :
    Option (LineScan × Option LineEntry) :=
  match st.match? false line formats with
  | none => some (unmatched st)
  | some (f, cs, fs) =>
    let rest := captured cs "r"
    if lacksType cs then none
    else if (f.role.map fun c => c = 'O' || c = 'P' || c = 'Q').getD false && !rest.isEmpty then
      let rest := rest.dropWhile fun c => c = ' ' || c = '\t'
      match st.match? true rest fs with
      | none => some (unmatched st)
      | some (f, cs, _) =>
        if lacksType cs then none
        else st.take f (.ofCaptures f rest true cs) (!(captured cs "f").isEmpty)
    else st.take f (.ofCaptures f line false cs) (!(captured cs "f").isEmpty)
where
  /-- The line is noise. -/
  unmatched (st : LineScan) : LineScan × Option LineEntry :=
    { st with multiline := false, ignoring := false }.add { valid := false }

/-- Reads lines, and gives out the entry that waits at the end. `none` when one of the lines cannot
    be taken in. -/
def entriesFrom (formats : List LineFormat) (st : LineScan) :
    List (List Char) → Option (List LineEntry)
  | [] => some (if st.pending then st.entries.head?.toList else [])
  | l :: ls => do
    let (st, e) ← step formats st l
    let rest ← entriesFrom formats st ls
    pure (e.toList ++ rest)

end LineScan

/-! ## Lines -/

/-- A line has to be shorter than this many bytes; a longer one ends the reading. -/
def maxLine : Nat := 65536

/-- The lines of an output: what stands before each newline, one carriage return at its end cut off,
    and a last line that has no newline. -/
def outputLines (s : Bytes) : List Bytes :=
  let pieces := Bytes.splitAt Bytes.newline s
  let lines := if pieces.getLast? = some [] then pieces.dropLast else pieces
  (lines.takeWhile (·.length < maxLine)).map fun l =>
    if l.getLast? = some 13 then l.dropLast else l

/-- The valid entries of an output; `none` when one of its lines cannot be taken in. -/
def entriesOf (formats : List LineFormat) (output : Bytes) : Option (List LineEntry) :=
  (LineScan.entriesFrom formats {} ((outputLines output).map Utf8.chars)).map fun es =>
    es.filter (·.valid)

end MarkupLint.Pattern
