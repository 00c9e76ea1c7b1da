/-
  The log: levels, the entries that parts of the program write, and what becomes of an entry. An
  entry is written when its level does not lie above the level of the log.
-/
import MarkupLint.Text.Blank
import MarkupLint.Text.LowerCase
import MarkupLint.Text.Quoted

namespace MarkupLint

/-- The weight of a log entry: the lower the number, the more it matters. Numbers other than those
    of the four levels may come in from outside. -/
structure LogLevel where
  rank : Int
  deriving DecidableEq, Repr

namespace LogLevel

def error : LogLevel := ⟨1⟩
def warn : LogLevel := ⟨2⟩
def info : LogLevel := ⟨3⟩
def debug : LogLevel := ⟨4⟩

def name (l : LogLevel) : String :=
  if l = error then "error" else if l = warn then "warn" else if l = info then "info"
  else if l = debug then "debug" else "unknown"

/-- The level of a name, blanks around it and letter case aside. -/
def ofName? (s : String) : Option LogLevel :=
  match LowerCase.ofString (Blank.trim s) with
  | "error" => some error
  | "warn" | "warning" => some warn
  | "info" => some info
  | "debug" => some debug
  | _ => none

/-- What is said about a name that is no level. -/
def unknownMessage (s : String) : String := "unknown log level: " ++ Quoted.ofString s

end LogLevel

/-- An entry of the log. -/
structure LogEntry where
  level : LogLevel
  text : String
  deriving DecidableEq, Repr

namespace LogEntry

/-- The line that is written. -/
def line (e : LogEntry) : String := "[" ++ e.level.name ++ "] " ++ e.text

/-- An entry of a text; one line end at the end of it does not count. -/
def ofText (level : LogLevel) (text : String) : LogEntry :=
  ⟨level, match text.toList.reverse with
    | '\n' :: r => String.ofList r.reverse
    | _ => text⟩

/-- What is left of the arguments when a pattern has no more places for them. -/
def surplus : List String → List Char
  | [] => []
  | args => ("%!(EXTRA " ++ ", ".intercalate (args.map fun a => "string=" ++ a) ++ ")").toList

/-- A pattern with the arguments put in, in their order: `%s` is the place of an argument, and `%%`
    a percent sign. Places and arguments that are left over are pointed out. -/
def fill : List Char → List String → List Char
  | [], args => surplus args
  | ['%'], args => "%!(NOVERB)".toList ++ surplus args
  | '%' :: '%' :: r, args => '%' :: fill r args
  | '%' :: 's' :: r, a :: args => a.toList ++ fill r args
  | '%' :: 's' :: r, [] => "%!s(MISSING)".toList ++ fill r []
  | c :: r, args => c :: fill r args

/-- An entry of a pattern and its arguments. -/
def ofPattern (level : LogLevel) (pattern : String) (args : List String) : LogEntry :=
  ofText level (String.ofList (fill pattern.toList args))

/-- The line of an entry made of parts: the level is the first part. -/
def lineOfParts (level : LogLevel) (parts : List String) : String :=
  " ".intercalate (("[" ++ level.name ++ "]") :: parts)

end LogEntry

/-- A log that is cut off at a level. -/
structure Logger where
  level : LogLevel
  deriving DecidableEq, Repr

/-- Entries of this level are written. -/
def Logger.enabled (l : Logger) (level : LogLevel) : Bool := level.rank ≤ l.level.rank

/-- The lines that are written of a list of entries. -/
def Logger.lines (l : Logger) (es : List LogEntry) : List String :=
  (es.filter fun e => l.enabled e.level).map (·.line)

end MarkupLint
