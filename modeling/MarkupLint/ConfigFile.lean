/-
  Which configuration file applies to a document, and what it says.

  The nearest directory upward from the document that holds a configuration file or a package root
  decides: its configuration file applies, and if it has none, no file applies.
-/
import MarkupLint.Failure
import MarkupLint.Log
import MarkupLint.Path.Glob

namespace MarkupLint

/-- How configuration files are found: what they are called, and what marks the root of a
    package. -/
structure ConfigLookup where
  fileName : Bytes := Bytes.ofString ".htmllintrc"
  rootMarkers : List Bytes := [Bytes.ofString "package.json"]
  deriving DecidableEq, Repr

namespace ConfigLookup

/-- A marker that ends in a slash is for directories. -/
def forDirs (marker : Bytes) : Bool := marker.getLast? = some Ascii.slash

/-- A marker without the slashes at its end. -/
def pattern (marker : Bytes) : Bytes := (marker.reverse.dropWhile (· == Ascii.slash)).reverse

/-- The marker matches a directory entry. -/
def marks (marker : Bytes) (entry : Bytes × Node) : Bool :=
  if forDirs marker then entry.2.isDir && Glob.accepts (pattern marker) entry.1
  else !entry.2.isDir && Glob.accepts marker entry.1

/-- The directory holds an entry that one of the markers matches. -/
def isMarked (fs : FileSystem) (markers : List Bytes) (dir : Bytes) : Bool :=
  (fs.entries dir).any fun e => markers.any fun m => marks m e

/-- The nearest directory upward from a path that is marked. -/
def markedDir? (fs : FileSystem) (path : Bytes) (markers : List Bytes) : Option Bytes :=
  (Path.upward path).find? (isMarked fs markers)

/-- The configuration file that applies to a document. A file beside the document wins at once. -/
def locate (l : ConfigLookup) (fs : FileSystem) (document : Bytes) : Option Bytes :=
  let beside := Path.join (Path.dir document) l.fileName
  if fs.fileExists beside then some beside
  else
    match markedDir? fs document (l.fileName :: l.rootMarkers) with
    | none => none
    | some dir =>
      let candidate := Path.join dir l.fileName
      if fs.fileExists candidate then some candidate else none

/-! ## Reading -/

/-- The configuration that a text spells. It has to be an object. -/
def parse (text : Bytes) : Except Failure Config :=
  match Json.ofBytes? text with
  | none => .error (.json .malformed)
  | some .null => .error (.plain "configuration must be an object")
  | some (.obj ms) =>
    match ConfigValue.ofMembers? ms with
    | none => .error (.json .mismatch)
    | some es => .ok (Table.ofList es).sorted
  | some _ => .error (.json .mismatch)

/-- The configuration in a file, empty when the file has gone meanwhile. -/
def load (fs : FileSystem) (path : Bytes) : Except Failure Config × List LogEntry :=
  match fs.read path with
  | .error .missing => (.ok [], [])
  | .error e => (.error (.file path e), [])
  | .ok text =>
    match parse text with
    | .error e => (.error (.badConfig path e), [])
    | .ok config => (.ok config, [.ofText .debug ("using configuration " ++ path.toText)])

/-- The configuration of a document, empty when no file applies. A document without a path has
    none. -/
def resolve (l : ConfigLookup) (fs : FileSystem) (document : Bytes) (canceled : Bool) :
    Except Failure Config × List LogEntry :=
  if canceled then (.error .canceled, [])
  else if document.isEmpty then (.ok [], [])
  else
    match l.locate fs document with
    | none =>
      (.ok [], [.ofText .debug ("no " ++ l.fileName.toText ++ " found for " ++ document.toText)])
    | some path => load fs path

end ConfigLookup

/-- A change of this file can change the configuration of a document: it is a configuration file, or
    the mark of a package root. -/
def affectsConfig (path : Bytes) : Bool :=
  let name := Path.base path
  name = Bytes.ofString ".htmllintrc" || name = Bytes.ofString "package.json"

end MarkupLint
