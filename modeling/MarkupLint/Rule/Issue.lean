/-
  Issues: single violations of a rule, with a code, a place and the details that a message needs. A
  linter outside of this program reports them as JSON, so any 64-bit numbers may come in.
-/
import MarkupLint.Json.Codec

namespace MarkupLint

/-- The details of an issue. Which of them are set depends on the code. -/
structure IssueData where
  attr : String := ""
  format : String := ""
  value : String := ""
  chars : String := ""
  desc : String := ""
  part : String := ""
  width : Int := 0
  limit : Int := 0
  deriving DecidableEq, Repr

/-- A violation of a rule. Lines and columns count from zero; `msg` is a message of the reporter's
    own, empty for none. -/
structure Issue where
  code : String := ""
  rule : String := ""
  line : Int := 0
  column : Int := 0
  data : IssueData := {}
  msg : String := ""
  deriving DecidableEq, Repr

open Codec in
/-- The details on the wire. -/
def IssueData.fields : List (Codec.Field IssueData) := [
  .whenSet "attribute" string (·.attr) fun d x => { d with attr := x },
  .whenSet "format" string (·.format) fun d x => { d with format := x },
  .whenSet "value" string (·.value) fun d x => { d with value := x },
  .whenSet "chars" string (·.chars) fun d x => { d with chars := x },
  .whenSet "desc" string (·.desc) fun d x => { d with desc := x },
  .whenSet "part" string (·.part) fun d x => { d with part := x },
  .whenSet "width" integer (·.width) fun d x => { d with width := x },
  .whenSet "limit" integer (·.limit) fun d x => { d with limit := x }]

def IssueData.codec : Codec IssueData := .record {} fields

open Codec in
/-- An issue on the wire. -/
def Issue.fields : List (Codec.Field Issue) := [
  .always "code" string (·.code) fun i x => { i with code := x },
  .always "rule" string (·.rule) fun i x => { i with rule := x },
  .always "line" integer (·.line) fun i x => { i with line := x },
  .always "column" integer (·.column) fun i x => { i with column := x },
  .always "data" IssueData.codec (·.data) fun i x => { i with data := x },
  .whenSet "msg" string (·.msg) fun i x => { i with msg := x }]

def Issue.codec : Codec Issue := .record {} fields

end MarkupLint
