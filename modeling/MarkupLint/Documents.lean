/-
  The documents that a client has open.
-/
import MarkupLint.Failure
import MarkupLint.Table

namespace MarkupLint

/-- An open document. Its path is empty when its URI names no file. -/
structure Document where
  uri : String
  version : Int
  language : String
  path : Bytes
  text : Bytes
  deriving DecidableEq, Repr

/-- The open documents by their URIs. -/
abbrev Documents := Table Document

/-- The failure of work on a document that is not open. -/
def Failure.notOpen (uri : String) : Failure := .plain ("document not found: " ++ uri)

/-- The path of the file that a URI stands for. -/
def filePath (uri : Bytes) : Except Failure Bytes := (Uri.path uri).mapError (.noFile uri)

namespace Documents

/-- The documents after one is opened, in place of one that is open already. A document without a
    file has an empty path. -/
def opened (ds : Documents) (uri language : String) (version : Int) (text : Bytes) : Documents :=
  ds.put uri
    { uri := uri
      version := version
      language := language
      path := ((filePath (Bytes.ofString uri)).toOption).getD []
      text := text }

/-- The documents after one got a new text, and a new version if one is given. -/
def changed (ds : Documents) (uri : String) (text : Bytes) (version : Option Int) :
    Except Failure Documents :=
  match ds.get? uri with
  | none => .error (.notOpen uri)
  | some d => .ok (ds.put uri { d with text := text, version := version.getD d.version })

/-- The documents after one is closed. -/
def closed (ds : Documents) (uri : String) : Documents := ds.erase uri

/-- The document is open at this version. -/
def isCurrent (ds : Documents) (uri : String) (version : Int) : Bool :=
  match ds.get? uri with
  | none => false
  | some d => d.version = version

/-- The URIs of the open documents, in order. -/
def uris (ds : Documents) : List String := (Table.sorted ds).names

end Documents
end MarkupLint
