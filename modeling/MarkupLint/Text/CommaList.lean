/-
  Comma lists: the fields of one record, divided by commas. A field in quotes may hold commas, line
  ends and, written twice, quotes; a field without quotes holds none.
-/
import MarkupLint.Text.Ascii
import MarkupLint.Text.Bytes

namespace MarkupLint.CommaList

/-- Why a text is no comma list. A quote stands in a field without quotes, or the quotes around a
    field are not closed where the field ends, or there is nothing but line ends. -/
inductive Flaw where
  | bareQuote (start line column : Nat)
  | quotes (start line column : Nat)
  | nothing
  deriving DecidableEq, Repr

namespace Flaw

/-- The place of a flaw, and the line on which the record starts when it is another one. -/
def place (start line column : Nat) : String :=
  (if start = line then "" else "record on line " ++ toString start ++ "; ") ++
    "parse error on line " ++ toString line ++ ", column " ++ toString column ++ ": "

def message : Flaw → String
  | .bareQuote s l c => place s l c ++ "bare \" in non-quoted-field"
  | .quotes s l c => place s l c ++ "extraneous or missing \" in quoted-field"
  | .nothing => "EOF"

end Flaw

/-- A line with one kind of line end, whether it was written with a carriage return or not. -/
def plainLine (l : Bytes) : Bytes :=
  if l.getLast? = some 13 then l.dropLast ++ [Bytes.newline] else l ++ [Bytes.newline]

/-- The lines of a text, with their ends. The last one may have no end, and then a carriage return
    there does not count. -/
def lines (s : Bytes) : List Bytes :=
  let parts := Bytes.splitAt Bytes.newline s
  let last := parts.getLast?.getD []
  let last := if last.getLast? = some 13 then last.dropLast else last
  parts.dropLast.map plainLine ++ (if last.isEmpty then [] else [last])

/-- Where reading stands in a field: at its start, in one without quotes, or in one with quotes. -/
inductive Mode where
  | fresh
  | bare
  | quoted
  deriving DecidableEq, Repr

/-- Nothing but a line end is left of a line. -/
def isOver (line : Bytes) : Bool := line.isEmpty || line = [Bytes.newline]

/-- Reads the fields of a record that starts on line `start`: `acc` holds the bytes of the field so
    far, `done` the fields before it, and `l` and `c` are the place of the next byte. -/
def fields (start : Nat) (mode : Mode) (l c : Nat) (acc : Bytes) (done : List Bytes)
    (line : Bytes) (more : List Bytes) : Except Flaw (List Bytes) :=
  match mode with
  | .quoted =>
    match line, more with
    | [], [] => .error (.quotes start l c)
    | [], next :: more => fields start .quoted (l + 1) 1 acc done next more
    | b :: r, more =>
      if b = Ascii.quote then
        match r with
        | [] => .ok (done ++ [acc])
        | b' :: r' =>
          if b' = Ascii.quote then fields start .quoted l (c + 2) (acc ++ [b]) done r' more
          else if b' = 44 then fields start .fresh l (c + 2) [] (done ++ [acc]) r' more
          else if isOver r then .ok (done ++ [acc])
          else .error (.quotes start l c)
      else fields start .quoted l (c + 1) (acc ++ [b]) done r more
  | mode =>
    match line with
    | [] => .ok (done ++ [acc])
    | b :: r =>
      if isOver line then .ok (done ++ [acc])
      else if b = 44 then fields start .fresh l (c + 1) [] (done ++ [acc]) r more
      else if b = Ascii.quote then
        if mode = .fresh then fields start .quoted l (c + 1) [] done r more
        else .error (.bareQuote start l c)
      else fields start .bare l (c + 1) (acc ++ [b]) done r more
termination_by (more.length, line.length)

/-- Reads the first record of a list of lines; empty lines before it are passed over. -/
def firstRecord (n : Nat) : List Bytes → Except Flaw (List Bytes)
  | [] => .error .nothing
  | line :: more =>
    if isOver line then firstRecord (n + 1) more else fields n .fresh n 1 [] [] line more

/-- The fields of a text, none if it is empty. -/
def ofBytes (s : Bytes) : Except Flaw (List Bytes) :=
  if s.isEmpty then .ok [] else firstRecord 1 (lines s)

end MarkupLint.CommaList
