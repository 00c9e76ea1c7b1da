/-
  Progress reports of a piece of work: one at its beginning, one at its end, both with the same
  token.
-/
import MarkupLint.Json.Value

namespace MarkupLint

/-- A progress report. -/
inductive Progress where
  | begin (title : String) (message : Option String) (percentage : Option Nat)
  | done (message : Option String)
  deriving DecidableEq, Repr

namespace Progress

/-- The members that are there. -/
def members (ms : List (String × Option Json)) : List (String × Json) :=
  ms.filterMap fun (k, v) => v.map fun v => (k, v)

/-- The report on the wire. -/
def toJson : Progress → Json
  | .begin title message percentage =>
    .obj (members [("kind", some (.str "begin")), ("title", some (.str title)),
      ("message", message.map .str), ("percentage", percentage.map fun n => .int n)])
  | .done message => .obj (members [("kind", some (.str "end")), ("message", message.map .str)])

end Progress
end MarkupLint
