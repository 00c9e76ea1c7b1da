/-
  The messages between client and server: requests, which are answered, and notifications, which are
  not.
-/
import MarkupLint.Failure
import MarkupLint.Json.Codec
import MarkupLint.Rule.Config

namespace MarkupLint

/-- What ties an answer to its request. -/
inductive RequestId where
  | number (n : Nat)
  | text (s : String)
  deriving DecidableEq, Repr

/-- The identifier on the wire. -/
def RequestId.toJson : RequestId → Json
  | .number n => .int n
  | .text s => .str s

namespace Json

mutual

/-- A value in which members have one name each, the last one given, and stand in the order of their
    names. -/
def tidy : Json → Json
  | .arr vs => .arr (tidyElements vs)
  | .obj ms => .obj (Table.ofList (tidyMembers ms)).sorted
  | v => v

/-- The elements of a list, tidied up. -/
def tidyElements : List Json → List Json
  | [] => []
  | v :: vs => v.tidy :: tidyElements vs

/-- The members of an object, tidied up. -/
def tidyMembers : List (String × Json) → List (String × Json)
  | [] => []
  | (k, v) :: ms => (k, v.tidy) :: tidyMembers ms

end

/-- The value is not `null`. -/
def isGiven : Json → Bool
  | .null => false
  | _ => true

end Json

/-! ## From the client -/

open Codec

/-- A value of any shape in which no number is beyond the range of doubles. -/
def anyValue : Codec (Option Json) :=
  { raw with
    read := fun start vs =>
      if vs.all fun v => (ConfigValue.ofJson? v).isSome then .ok (vs.getLast?.or start)
      else .error .mismatch }

/-- What tells the kinds of messages apart. -/
structure Heading where
  id : Option Json := none
  method : Option String := none
  result : Option Json := none
  error : Option Json := none

namespace Heading

def codec : Codec Heading :=
  record {} [
    .whenSet "id" anyValue (·.id) fun h x => { h with id := x },
    .whenSet "method" (nullable string) (·.method) fun h x => { h with method := x },
    .whenSet "result" anyValue (·.result) fun h x => { h with result := x },
    .whenSet "error" anyValue (·.error) fun h x => { h with error := x }]

/-- The message names a method. -/
def isCall (h : Heading) : Bool := h.method.isSome

/-- The message brings a result, which may be `null`, or an error. -/
def isAnswer (h : Heading) : Bool := h.result.isSome || (h.error.map Json.isGiven).getD false

end Heading

/-- The error of an answer. -/
structure AnswerError where
  code : Int := 0
  message : String := ""
  deriving DecidableEq, Repr

def AnswerError.codec : Codec AnswerError :=
  record {} [
    .always "code" integer (·.code) fun e x => { e with code := x },
    .always "message" string (·.message) fun e x => { e with message := x }]

/-- The identifier of an answer: a 64-bit word without a sign, or a text. Without one an answer
    belongs to the request of number zero. -/
def RequestId.codec : Codec RequestId where
  blank := .number 0
  read start vs := vs.foldlM (fun _ v =>
    match v with
    | .null => .ok (.number 0)
    | .str s => .ok (.text s)
    | .num ⟨false, n, none, none⟩ =>
      if n < 18446744073709551616 then .ok (.number n) else .error .mismatch
    | _ => .error .mismatch) start
  write := RequestId.toJson
  isBlank _ := false

/-- An answer to a request of the server. -/
structure Answer where
  id : RequestId := .number 0
  result : Option Json := none
  error : Option AnswerError := none

namespace Answer

def codec : Codec Answer :=
  record {} [
    .always "id" RequestId.codec (·.id) fun a x => { a with id := x },
    .whenSet "result" raw (·.result) fun a x => { a with result := x },
    .whenSet "error" (nullable AnswerError.codec) (·.error) fun a x => { a with error := x }]

/-- What the answer says: its error if it has one. -/
def outcome (a : Answer) : Except Failure Json :=
  match a.error with
  | some e => .error (.answer e.code e.message)
  | none => .ok (a.result.getD .null)

end Answer

/-- A message from the client. -/
inductive ClientMessage where
  | request (id : RequestId) (method : String) (params : Option Json)
  | notification (method : String) (params : Option Json)
  | reply (id : RequestId) (result : Except Failure Json)

namespace ClientMessage

/-- The identifier of a call: `some none` when it has none, `none` when it cannot be one. Numbers
    are 64-bit words, and negative ones count from the top. -/
def id? (j : Json) : Option (Option RequestId) :=
  match j.get? "id" with
  | none | some .null => some none
  | some (.str s) => some (some (.text s))
  | some (.num n) =>
    match n.toInt? with
    | some i => if fits64 i then some (some (.number (i % 18446744073709551616).toNat)) else none
    | none => none
  | some _ => none

/-- A request or a notification. The names of its members are spelled exactly. -/
def ofCall? (j : Json) : Option ClientMessage :=
  let params := (j.get? "params").map Json.tidy
  match j.get? "method", id? j with
  | some (.str method), some none => some (.notification method params)
  | some (.str method), some (some id) => some (.request id method params)
  | _, _ => none

/-- An answer. -/
def ofAnswer? (j : Json) : Option ClientMessage :=
  match Answer.codec.readOne j with
  | .ok a => some (.reply a.id a.outcome)
  | .error _ => none

/-- The message of a JSON value: either a call or an answer, never both. -/
def ofJson? (j : Json) : Option ClientMessage :=
  match Heading.codec.readOne j with
  | .error _ => none
  | .ok h =>
    match h.isCall, h.isAnswer with
    | true, false => ofCall? j
    | false, true => ofAnswer? j
    | _, _ => none

end ClientMessage

/-! ## From the server -/

/-- A message from the server. -/
inductive ServerMessage where
  | result (id : RequestId) (value : Json)
  | error (id : RequestId) (code : Int) (message : String)
  | request (number : Nat) (method : String) (params : Json)
  | notification (method : String) (params : Json)

namespace ServerMessage

/-- The message on the wire. -/
def toJson : ServerMessage → Json
  | .result id v => .obj [("id", id.toJson), ("result", v), ("jsonrpc", .str "2.0")]
  | .error id code text =>
    .obj [("id", id.toJson), ("error", .obj [("code", .int code), ("message", .str text)]),
      ("jsonrpc", .str "2.0")]
  | .request n method params =>
    .obj [("id", .int n), ("method", .str method), ("params", params), ("jsonrpc", .str "2.0")]
  | .notification method params =>
    .obj [("method", .str method), ("params", params), ("jsonrpc", .str "2.0")]

/-- The answer to a request that failed. A failure that is no error answer itself has the code
    zero. -/
def ofFailure (id : RequestId) : Failure → ServerMessage
  | .answer code text => .error id code text
  | f => .error id 0 f.message

end ServerMessage
end MarkupLint
