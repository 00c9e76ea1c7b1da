/-
  Diagnoses: from the issues of a document to the diagnostics that a client is shown, one for each,
  in order. Lines and columns are 64-bit numbers, and sums of them wrap around as such.
-/
import MarkupLint.Number.Word
import MarkupLint.Protocol.Diagnostic
import MarkupLint.Rule.Message
import MarkupLint.Settings

namespace MarkupLint

/-- What every diagnostic names as its source. -/
def diagnosticSource : String := "htmllint"

namespace Issue

/-- The line of the issue's diagnostic: one further than reported, less the offset, and not below
    zero. -/
def diagnosticLine (i : Issue) (s : Settings) : Int := max (wrap64 (i.line + 1 - s.lintOffset)) 0

/-- The range of the issue's diagnostic: in line mode the whole line, else one character. -/
def diagnosticRange (i : Issue) (s : Settings) : Range :=
  let line := i.diagnosticLine s
  if s.rangeMode = "line" then ⟨⟨line, 0⟩, ⟨wrap64 (line + 1), 0⟩⟩
  else
    let column := max i.column 0
    ⟨⟨line, column⟩, ⟨line, wrap64 (column + 1)⟩⟩

/-- The name that a diagnostic goes by: the rule, else the code. -/
def diagnosticCode (i : Issue) : Option String :=
  if i.rule ≠ "" then some i.rule else if i.code ≠ "" then some i.code else none

/-- The diagnostic of an issue. -/
def diagnose (s : Settings) (i : Issue) : Diagnostic :=
  { range := i.diagnosticRange s
    severity := 1
    code := i.diagnosticCode
    source := some diagnosticSource
    message := i.message }

end Issue

/-- The diagnostics of a list of issues. -/
def diagnoseAll (s : Settings) (issues : List Issue) : List Diagnostic := issues.map (·.diagnose s)

/-- The diagnostics that are shown: the first ones up to the limit, all when the limit is not
    positive. -/
def Settings.limit (s : Settings) (ds : List Diagnostic) : List Diagnostic :=
  if 0 < s.maxNumberOfProblems then ds.take s.maxNumberOfProblems.toNat else ds

end MarkupLint
