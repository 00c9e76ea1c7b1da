/-
  How messages stand in a stream: a header that gives the number of bytes, an empty line, and the
  message.
-/
import MarkupLint.Json.Writer
import MarkupLint.Text.Ascii
import MarkupLint.Text.Bytes

namespace MarkupLint.Frame

/-- The field of the header that counts. -/
def lengthField : Bytes := Bytes.ofString "Content-Length: "

/-- A line of a header without its end; `none` when it does not end as lines of headers do. -/
def content? (line : Bytes) : Option Bytes :=
  match line.reverse with
  | 10 :: 13 :: r => some r.reverse
  | _ => none

/-- What is known of the length after a line of the header; `none` when the line cannot be read. -/
def length? (known : Nat) (content : Bytes) : Option Nat :=
  match Bytes.rest? lengthField content with
  | none => some known
  | some ds =>
    if ds.isEmpty || !ds.all Ascii.isDigit then none
    else
      let n := ds.foldl (fun n b => n * 10 + (b.toNat - 48)) 0
      if n < 4294967296 then some n else none

/-- A message with its header. -/
def render (message : Json) : String :=
  let body := message.render
  "Content-Length: " ++ toString body.utf8ByteSize ++ "\r\n\r\n" ++ body

end MarkupLint.Frame
