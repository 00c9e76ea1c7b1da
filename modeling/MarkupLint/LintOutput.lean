/-
  What an outside linter prints, read as issues: JSON, or lines in given formats.
-/
import MarkupLint.Failure
import MarkupLint.Number.Word
import MarkupLint.Pattern.LineEntry
import MarkupLint.Text.Blank

namespace MarkupLint

/-- An integer with at least three places, its sign counting as one. -/
def threePlaces (n : Int) : String :=
  let ds := Nat.toDigits 10 n.natAbs
  let width := if n < 0 then 2 else 3
  String.ofList ((if n < 0 then ['-'] else []) ++ List.replicate (width - ds.length) '0' ++ ds)

/-- The issue of an entry. Linters count lines and columns from one, issues from zero. -/
def Issue.ofEntry (e : Pattern.LineEntry) : Issue :=
  let fromOne (n : Int) : Int := max (wrap64 (n - 1)) 0
  { line := fromOne e.line
    column := fromOne e.column
    msg := String.ofList (Blank.trimChars e.text)
    code := if e.number = 0 then "" else "E" ++ threePlaces e.number }

namespace LintOutput

/-- The output is JSON: no format is given, or only `json`. -/
def isJson (formats : List String) : Bool := formats.isEmpty || formats = ["json"]

/-- The issues that a JSON output lists. An output of blanks only lists none; `null` is no list. -/
def ofJson (output : Bytes) : Except Failure (Option (List Issue)) :=
  if Blank.isBlankLine output then .ok (some [])
  else
    match (Codec.list Issue.codec).readText output with
    | .ok issues => .ok issues
    | .error e => .error (.remark "invalid linter output" (.json e))

/-- The formats of a list of texts; the first one that cannot be used decides. -/
def formatsOf (texts : List String) : Except Pattern.FormatError (List Pattern.LineFormat) :=
  texts.mapM Pattern.LineFormat.ofText

/-- The issues of an output in lines of the given formats. -/
def ofLines (formats : List String) (output : Bytes) : Except Failure (List Issue) :=
  match formatsOf formats with
  | .error .invalid => .error (.plain ("invalid error-format: [" ++ " ".intercalate formats ++ "]"))
  | .error .cut => .error .broken
  | .ok fs =>
    match Pattern.entriesOf fs output with
    | none => .error .broken
    | some es => .ok (es.map Issue.ofEntry)

/-- The issues of an output. -/
def issues (formats : List String) (output : Bytes) : Except Failure (Option (List Issue)) :=
  if isJson formats then ofJson output else (ofLines formats output).map some

end LintOutput
end MarkupLint
