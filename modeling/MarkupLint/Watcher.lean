/-
  Watching the workspace for changes of configuration files, for clients that cannot do it.

  Every directory of the workspace is watched, except those of tools, which hold no documents.
  Changes of configuration files are gathered while they keep coming, and handed on together when a
  while has passed without one.
-/
import MarkupLint.ConfigFile
import MarkupLint.FileSystem

namespace MarkupLint

/-- What happened to a file; several things may come together. -/
structure FileChange where
  create : Bool := false
  remove : Bool := false
  write : Bool := false
  rename : Bool := false
  chmod : Bool := false
  deriving DecidableEq, Repr

namespace FileChange

/-- What happened, in words. -/
def text (c : FileChange) : String :=
  let words :=
    [(c.create, "CREATE"), (c.remove, "REMOVE"), (c.write, "WRITE"), (c.rename, "RENAME"),
    (c.chmod, "CHMOD")].filterMap fun (b, w) => if b then some w else none
  if words.isEmpty then "[no events]" else "|".intercalate words

/-- The width to which the words are filled up. -/
def column : Nat := 13

/-- A change of a file as one line. -/
def line (c : FileChange) (path : Bytes) : String :=
  let words := c.text.toList
  String.ofList (words ++ List.replicate (column - words.length) ' ') ++ " " ++ Quoted.ofBytes path

end FileChange

/-! ## Directories -/

/-- The directories of tools. -/
def toolDirs : List Bytes := [".git", "node_modules", ".hg", ".svn"].map Bytes.ofString

mutual

/-- The directories of a tree, without those of tools below its root. -/
def Node.dirs (path : Bytes) : Node → List Bytes
  | .file _ => []
  | .dir es => Path.clean path :: Node.entryDirs path es

/-- The directories in the trees of directory entries. -/
def Node.entryDirs (path : Bytes) : List (Bytes × Node) → List Bytes
  | [] => []
  | (name, node) :: es =>
    (if toolDirs.contains name then [] else node.dirs (Path.join path name)) ++
      Node.entryDirs path es

end

/-- The directories to watch from a path on, none when there is nothing. -/
def FileSystem.watchedDirs (fs : FileSystem) (path : Bytes) : List Bytes :=
  match fs.node path with
  | .ok n => n.dirs path
  | .error _ => []

/-! ## The loop -/

/-- The state of a watcher. -/
structure Watcher where
  watched : List Bytes
  /-- the configuration files that have changed, in the order of their first change -/
  pending : List Bytes := []
  /-- the time is running after which the changes are handed on -/
  armed : Bool := false
  deriving DecidableEq, Repr

/-- What comes to a watcher. -/
inductive WatchEvent where
  | changed (change : FileChange) (path : Bytes)
  | failed (text : String)
  /-- the time has run out -/
  | expired
  deriving DecidableEq, Repr

namespace Watcher

/-- A watcher over a workspace. -/
def ofRoot (fs : FileSystem) (root : Bytes) : Watcher := ⟨fs.watchedDirs root, [], false⟩

/-- Watches the directories too that were just made. -/
def extend (fs : FileSystem) (w : Watcher) (c : FileChange) (path : Bytes) : Watcher :=
  if c.create && fs.isDir path then
    { w with watched := w.watched ++
        (fs.watchedDirs path).filter fun d => !w.watched.contains d }
  else w

/-- Notes a change of a configuration file, once. -/
def note (w : Watcher) (path : Bytes) : Watcher :=
  { w with
    pending := if w.pending.contains path then w.pending else w.pending ++ [path]
    armed := true }

/-- One event: the watcher after it, the changes that it hands on, and what it logs. -/
def step (fs : FileSystem) (w : Watcher) :
    WatchEvent → Watcher × Option (List Bytes) × List LogEntry
  | .changed c path =>
    let w := w.extend fs c path
    if affectsConfig path then
      (w.note path, none, [⟨.debug, "config file event: " ++ c.line path⟩])
    else (w, none, [])
  | .failed text => (w, none, [.ofText .warn ("watcher error: " ++ text)])
  | .expired =>
    if w.armed then ({ w with pending := [], armed := false }, some w.pending, [])
    else (w, none, [])

end Watcher
end MarkupLint
