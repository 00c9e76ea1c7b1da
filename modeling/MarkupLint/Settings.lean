/-
  The settings of a document, as a client gives them, and the client's own configuration around
  them.
-/
import MarkupLint.Json.Codec

namespace MarkupLint

/-- How diagnostics of a document are made. A limit that is not positive means none; the offset is
    taken off every reported line; `reportErrors` is on unless it is set to `false`. -/
structure Settings where
  maxNumberOfProblems : Int := 1000
  rangeMode : String := "character"
  lintOffset : Int := 0
  reportErrors : Option Bool := none
  deriving DecidableEq, Repr

namespace Settings

open Codec

/-- The settings when a client says nothing. -/
def default : Settings := {}

/-- The fields on the wire. -/
def fields : List (Codec.Field Settings) := [
  .always "maxNumberOfProblems" integer (·.maxNumberOfProblems)
    fun s x => { s with maxNumberOfProblems := x },
  .whenSet "rangeMode" string (·.rangeMode) fun s x => { s with rangeMode := x },
  .whenSet "lintOffset" integer (·.lintOffset) fun s x => { s with lintOffset := x },
  .whenSet "reportErrors" (nullable flag) (·.reportErrors) fun s x => { s with reportErrors := x }]

/-- Settings are always read into the defaults, whatever was given before. -/
def codec : Codec Settings :=
  let c := record default fields
  { c with read := fun start vs => vs.foldlM (fun _ v => c.readOne v) start }

/-- Failures are shown as a diagnostic. -/
def reportsErrors (s : Settings) : Bool := s.reportErrors.getD true

end Settings

/-- What a client sends as its configuration: settings, and the delay before linting in
    nanoseconds. -/
structure ClientConfig where
  settings : Option Settings := none
  lintDebounce : Int := 0
  deriving DecidableEq, Repr

open Codec in
def ClientConfig.codec : Codec ClientConfig :=
  record {} [
    .whenSet "htmllint" (nullable Settings.codec) (·.settings) fun c x => { c with settings := x },
    .whenSet "lintDebounce" integer (·.lintDebounce) fun c x => { c with lintDebounce := x }]

end MarkupLint
