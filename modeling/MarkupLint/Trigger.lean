/-
  What sets off the validation of a document.
-/

namespace MarkupLint

/-- The events after which a document is validated. -/
inductive Trigger where
  | changed
  | saved
  | opened
  | configChanged
  | settingsChanged
  | other
  deriving DecidableEq, Repr

namespace Trigger

/-- The events are numbered from zero; numbers beyond them mean no particular event. -/
def ofNumber (n : Int) : Trigger :=
  if n = 0 then changed else if n = 1 then saved else if n = 2 then opened
  else if n = 3 then configChanged else if n = 4 then settingsChanged else other

/-- The name of the event in the log. -/
def name : Trigger → String
  | changed => "change"
  | saved => "save"
  | opened => "open"
  | configChanged => "config-file-change"
  | settingsChanged => "settings-change"
  | other => "unknown"

end Trigger
end MarkupLint
