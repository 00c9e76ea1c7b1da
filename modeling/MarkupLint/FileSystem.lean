/-
  A file system as a value: a tree of directories and files, and the directory that relative paths
  start from. There are no links, and everything can be read.
-/
import MarkupLint.Path.Basic

namespace MarkupLint

/-- A file with its content, or a directory with its entries. -/
inductive Node where
  | file (content : Bytes)
  | dir (entries : List (Bytes × Node))
  deriving Inhabited

/-- Why a path leads to no file. -/
inductive FileError where
  | missing
  | notDirectory
  | isDirectory
  | nameTooLong
  | invalid
  deriving DecidableEq, Repr

namespace Node

def isDir : Node → Bool
  | .dir _ => true
  | .file _ => false

/-- The entry of a directory. -/
def child? (name : Bytes) : List (Bytes × Node) → Option Node
  | [] => none
  | (n, node) :: es => if n = name then some node else child? name es

/-- The entries with `name` replaced, added, or taken away. -/
def setChild (name : Bytes) (new? : Option Node) : List (Bytes × Node) → List (Bytes × Node)
  | [] => new?.toList.map fun node => (name, node)
  | (n, node) :: es =>
    if n = name then (new?.toList.map fun new => (name, new)) ++ es
    else (n, node) :: setChild name new? es

/-- The longest name that an entry may have, in bytes. -/
def maxName : Nat := 255

/-- Follows the parts of a path from a node; `up` are the directories above it, nearest first. An
    empty part and `.` stay, but only on a directory. -/
def walk (up : List Node) (n : Node) : List Bytes → Except FileError Node
  | [] => .ok n
  | part :: rest =>
    match n with
    | .file _ => .error .notDirectory
    | .dir entries =>
      if part.isEmpty || part = Path.dot then walk up n rest
      else if part = Path.dotDot then
        match up with
        | [] => walk [] n rest
        | parent :: above => walk above parent rest
      else if maxName < part.length then .error .nameTooLong
      else
        match child? part entries with
        | none => .error .missing
        | some child => walk (n :: up) child rest

/-- The tree in which the parts lead to what `f` makes of what was there; directories on the way are
    made when they are missing. A file on the way stays, and nothing changes. -/
def update (f : Option Node → Option Node) : List Bytes → Option Node → Option Node
  | [], old => f old
  | part :: rest, old =>
    match old with
    | some (.file c) => some (.file c)
    | some (.dir es) => some (.dir (setChild part (update f rest (child? part es)) es))
    | none =>
      match update f rest none with
      | some new => some (.dir [(part, new)])
      | none => none

end Node

/-- A tree and the directory that relative paths start from. -/
structure FileSystem where
  root : Node
  cwd : Bytes

namespace FileSystem

/-- A file system without any file. -/
def empty : FileSystem := ⟨.dir [], [Ascii.slash]⟩

/-- The longest path, in bytes. -/
def maxPath : Nat := 4095

/-- What a path leads to. -/
def node (fs : FileSystem) (p : Bytes) : Except FileError Node :=
  if p.isEmpty then .error .missing
  else if p.contains 0 then .error .invalid
  else if maxPath < p.length then .error .nameTooLong
  else
    let full := if Path.isAbsolute p then p else fs.cwd ++ Ascii.slash :: p
    Node.walk [] fs.root (Bytes.splitAt Ascii.slash full)

/-- The path leads to something that is no directory. -/
def fileExists (fs : FileSystem) (p : Bytes) : Bool :=
  match fs.node p with
  | .ok n => !n.isDir
  | .error _ => false

/-- The path leads to a directory. -/
def isDir (fs : FileSystem) (p : Bytes) : Bool :=
  match fs.node p with
  | .ok n => n.isDir
  | .error _ => false

/-- The content of a file. -/
def read (fs : FileSystem) (p : Bytes) : Except FileError Bytes :=
  match fs.node p with
  | .ok (.file content) => .ok content
  | .ok (.dir _) => .error .isDirectory
  | .error e => .error e

/-- The entries of a directory, none when the path leads to no directory. -/
def entries (fs : FileSystem) (p : Bytes) : List (Bytes × Node) :=
  match fs.node p with
  | .ok (.dir es) => es
  | _ => []

/-- Changes what an absolute path leads to. -/
def change (fs : FileSystem) (p : Bytes) (f : Option Node → Option Node) : FileSystem :=
  { fs with root := (Node.update f (Path.parts (Path.clean p)) (some fs.root)).getD (.dir []) }

/-- Writes a file, with the directories above it. -/
def write (fs : FileSystem) (p content : Bytes) : FileSystem :=
  fs.change p fun
    | some (.dir es) => some (.dir es)
    | _ => some (.file content)

/-- The path of the directory that an entry is in, each part as it is spelled. -/
def enclosing (p : Bytes) : Bytes :=
  let isSlash (b : UInt8) : Bool := b = Ascii.slash
  let lead := ((p.reverse.dropWhile isSlash).dropWhile fun b => !isSlash b).reverse
  if lead.isEmpty then Path.dot else lead

/-- Opens a file for writing. A file that is missing is made, but no directory. -/
def openForWriting (fs : FileSystem) (p : Bytes) : Except FileError FileSystem :=
  match fs.node p with
  | .ok (.file _) => .ok fs
  | .ok (.dir _) => .error .isDirectory
  | .error .missing =>
    match fs.node (enclosing p) with
    | .ok (.dir _) =>
      if p.getLast? = some Ascii.slash then .error .isDirectory
      else .ok (fs.write (Path.absolute fs.cwd p) [])
    | .ok (.file _) => .error .notDirectory
    | .error e => .error e
  | .error e => .error e

/-- Makes a directory, with those above it. -/
def makeDir (fs : FileSystem) (p : Bytes) : FileSystem :=
  fs.change p fun
    | some n => some n
    | none => some (.dir [])

/-- Takes away a file, or a directory with all that is in it. -/
def remove (fs : FileSystem) (p : Bytes) : FileSystem :=
  if (fs.node p).toOption.isSome then fs.change p fun _ => none else fs

end FileSystem
end MarkupLint
