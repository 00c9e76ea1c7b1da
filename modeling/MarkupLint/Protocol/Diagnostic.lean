/-
  Diagnostics and the places they point to, as they go over the wire.
-/
import MarkupLint.Json.Codec

namespace MarkupLint

/-- A place in a document, both numbers from zero. -/
structure Position where
  line : Int := 0
  character : Int := 0
  deriving DecidableEq, Repr

/-- A stretch of a document, its end not included. -/
structure Range where
  start : Position := {}
  stop : Position := {}
  deriving DecidableEq, Repr

structure Location where
  uri : String := ""
  range : Range := {}
  deriving DecidableEq, Repr

structure RelatedInformation where
  location : Location := {}
  message : String := ""
  deriving DecidableEq, Repr

/-- A problem at a place. Severity 1 is an error. -/
structure Diagnostic where
  range : Range := {}
  severity : Int := 0
  code : Option String := none
  source : Option String := none
  message : String := ""
  related : Option (List RelatedInformation) := none
  deriving DecidableEq, Repr

open Codec

def Position.codec : Codec Position :=
  record {} [
    .always "line" integer (·.line) fun p x => { p with line := x },
    .always "character" integer (·.character) fun p x => { p with character := x }]

def Range.codec : Codec Range :=
  record {} [
    .always "start" Position.codec (·.start) fun r x => { r with start := x },
    .always "end" Position.codec (·.stop) fun r x => { r with stop := x }]

def Location.codec : Codec Location :=
  record {} [
    .always "uri" string (·.uri) fun l x => { l with uri := x },
    .always "range" Range.codec (·.range) fun l x => { l with range := x }]

def RelatedInformation.codec : Codec RelatedInformation :=
  record {} [
    .always "location" Location.codec (·.location) fun r x => { r with location := x },
    .always "message" string (·.message) fun r x => { r with message := x }]

def Diagnostic.codec : Codec Diagnostic :=
  record {} [
    .always "range" Range.codec (·.range) fun d x => { d with range := x },
    .whenSet "severity" integer (·.severity) fun d x => { d with severity := x },
    .whenSet "code" (nullable string) (·.code) fun d x => { d with code := x },
    .whenSet "source" (nullable string) (·.source) fun d x => { d with source := x },
    .always "message" string (·.message) fun d x => { d with message := x },
    .whenSet "relatedInformation" (list RelatedInformation.codec) (·.related)
      fun d x => { d with related := x }]

/-- The diagnostics of one version of a document. -/
structure Publication where
  uri : String := ""
  diagnostics : Option (List Diagnostic) := none
  version : Int := 0
  deriving DecidableEq, Repr

def Publication.codec : Codec Publication :=
  record {} [
    .always "uri" string (·.uri) fun p x => { p with uri := x },
    .always "diagnostics" (list Diagnostic.codec) (·.diagnostics)
      fun p x => { p with diagnostics := x },
    .always "version" integer (·.version) fun p x => { p with version := x }]

end MarkupLint
