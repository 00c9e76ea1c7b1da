/-
  Messages about text documents, as they come over the wire.
-/
import MarkupLint.Protocol.Diagnostic

namespace MarkupLint

/-- A document that a client opens. -/
structure DocumentItem where
  uri : String := ""
  languageId : String := ""
  version : Int := 0
  text : String := ""
  deriving DecidableEq, Repr

structure DidOpen where
  document : DocumentItem := {}
  deriving DecidableEq, Repr

structure DocumentId where
  uri : String := ""
  deriving DecidableEq, Repr

structure VersionedDocumentId where
  uri : String := ""
  version : Int := 0
  deriving DecidableEq, Repr

structure DidClose where
  document : DocumentId := {}
  deriving DecidableEq, Repr

/-- A change of a document; without a range `text` is all of it. -/
structure ContentChange where
  range : Option Range := none
  rangeLength : Int := 0
  text : String := ""
  deriving DecidableEq, Repr

structure DidChange where
  document : VersionedDocumentId := {}
  changes : Option (List ContentChange) := none
  deriving DecidableEq, Repr

structure DidSave where
  text : Option String := none
  document : DocumentId := {}
  deriving DecidableEq, Repr

structure CompletionItem where
  label : String := ""
  kind : Int := 0
  detail : String := ""
  documentation : String := ""
  data : Option Json := none

structure CompletionParams where
  document : DocumentId := {}
  position : Position := {}
  deriving DecidableEq, Repr

open Codec

def DocumentItem.codec : Codec DocumentItem :=
  record {} [
    .always "uri" string (·.uri) fun d x => { d with uri := x },
    .always "languageId" string (·.languageId) fun d x => { d with languageId := x },
    .always "version" integer (·.version) fun d x => { d with version := x },
    .always "text" string (·.text) fun d x => { d with text := x }]

def DidOpen.codec : Codec DidOpen :=
  record {} [
    .always "textDocument" DocumentItem.codec (·.document) fun d x => { d with document := x }]

def DocumentId.codec : Codec DocumentId :=
  record {} [.always "uri" string (·.uri) fun d x => { d with uri := x }]

def VersionedDocumentId.codec : Codec VersionedDocumentId :=
  record {} [
    .always "uri" string (·.uri) fun d x => { d with uri := x },
    .always "version" integer (·.version) fun d x => { d with version := x }]

def DidClose.codec : Codec DidClose :=
  record {} [
    .always "textDocument" DocumentId.codec (·.document) fun d x => { d with document := x }]

def ContentChange.codec : Codec ContentChange :=
  record {} [
    .whenSet "range" (nullable Range.codec) (·.range) fun c x => { c with range := x },
    .whenSet "rangeLength" integer (·.rangeLength) fun c x => { c with rangeLength := x },
    .always "text" string (·.text) fun c x => { c with text := x }]

def DidChange.codec : Codec DidChange :=
  record {} [
    .always "textDocument" VersionedDocumentId.codec (·.document)
      fun d x => { d with document := x },
    .always "contentChanges" (list ContentChange.codec) (·.changes)
      fun d x => { d with changes := x }]

def DidSave.codec : Codec DidSave :=
  record {} [
    .always "text" (nullable string) (·.text) fun d x => { d with text := x },
    .always "textDocument" DocumentId.codec (·.document) fun d x => { d with document := x }]

def CompletionItem.codec : Codec CompletionItem :=
  record {} [
    .always "label" string (·.label) fun c x => { c with label := x },
    .whenSet "kind" integer (·.kind) fun c x => { c with kind := x },
    .whenSet "detail" string (·.detail) fun c x => { c with detail := x },
    .whenSet "documentation" string (·.documentation) fun c x => { c with documentation := x },
    .whenSet "data" raw (·.data) fun c x => { c with data := x }]

def CompletionParams.codec : Codec CompletionParams :=
  record {} [
    .always "textDocument" DocumentId.codec (·.document) fun c x => { c with document := x },
    .always "position" Position.codec (·.position) fun c x => { c with position := x }]

end MarkupLint
