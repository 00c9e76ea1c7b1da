/-
  File paths, taken apart as texts: a slash separates, nothing else is special. The file system is
  not asked.
-/
import MarkupLint.Text.Ascii

namespace MarkupLint.Path

open Ascii

/-- A path starts at the root. -/
def isAbsolute (p : Bytes) : Bool := p.head? = some slash

def dot : Bytes := [46]
def dotDot : Bytes := [46, 46]

/-- The parts of a path between its slashes, empty ones and `.` left out. -/
def parts (p : Bytes) : List Bytes :=
  (Bytes.splitAt slash p).filter fun c => !c.isEmpty && c != dot

/-- Adds a part to a clean path, whose parts are given last first. A `..` takes the last part away,
    is void at the root, and stays in front of a relative path. -/
def push (rooted : Bool) (done : List Bytes) (part : Bytes) : List Bytes :=
  if part = dotDot then
    match done with
    | last :: rest => if last = dotDot then part :: done else rest
    | [] => if rooted then [] else [part]
  else part :: done

/-- The parts with slashes between them. -/
def joinParts : List Bytes → Bytes
  | [] => []
  | [c] => c
  | c :: cs => c ++ slash :: joinParts cs

/-- The path of the given parts, from the root or relative. -/
def ofParts (rooted : Bool) (ps : List Bytes) : Bytes :=
  if rooted then slash :: joinParts ps else if ps.isEmpty then dot else joinParts ps

/-- The shortest path that means the same: no `.`, no empty part, `..` only in front of a relative
    path. The empty path is `.`. -/
def clean (p : Bytes) : Bytes :=
  let rooted := isAbsolute p
  ofParts rooted ((parts p).foldl (push rooted) []).reverse

/-- The path up to and including its last slash. -/
def throughLastSlash (p : Bytes) : Bytes := (p.reverse.dropWhile (· != slash)).reverse

/-- The directory of a path. -/
def dir (p : Bytes) : Bytes := clean (throughLastSlash p)

/-- The directories from that of a path upward: to the root, or to `.` when the path is relative. -/
def upward (p : Bytes) : List Bytes :=
  let d := dir p
  let ps := parts d
  (List.range (ps.length + 1)).reverse.map fun n => ofParts (isAbsolute d) (ps.take n)

/-- The last part of a path: `.` for the empty path, `/` when there are only slashes. -/
def base (p : Bytes) : Bytes :=
  if p.isEmpty then dot
  else
    let cut := p.reverse.dropWhile (· == slash)
    if cut.isEmpty then [slash] else (cut.takeWhile (· != slash)).reverse

/-- The extension of the last part, from its last dot on. -/
def ext (p : Bytes) : Bytes :=
  let last := (p.reverse.takeWhile (· != slash))
  let tail := last.takeWhile (· != 46)
  if tail.length < last.length then 46 :: tail.reverse else []

/-- One path below another. -/
def join (a b : Bytes) : Bytes :=
  if a.isEmpty then if b.isEmpty then [] else clean b else clean (a ++ slash :: b)

/-- The absolute form of a path in the directory `cwd`. -/
def absolute (cwd p : Bytes) : Bytes := if isAbsolute p then clean p else join cwd p

example : clean (Bytes.ofString "/a/./b/../../c//") = Bytes.ofString "/c" := by decide +kernel
example : clean (Bytes.ofString "a/../../b") = Bytes.ofString "../b" := by decide +kernel
example : dir (Bytes.ofString "/a/b/") = Bytes.ofString "/a/b" := by decide +kernel
example : upward (Bytes.ofString "/a/b/c") =
    [Bytes.ofString "/a/b", Bytes.ofString "/a", Bytes.ofString "/"] := by decide +kernel
example : base (Bytes.ofString "/a/b//") = Bytes.ofString "b" := by decide +kernel
example : ext (Bytes.ofString "/a.b/c.tar.gz") = Bytes.ofString ".gz" := by decide +kernel

end MarkupLint.Path
