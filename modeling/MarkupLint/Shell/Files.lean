/-
  Commands on files and on their names.
-/
import MarkupLint.Shell.Lines

namespace MarkupLint.Shell

/-! ## Names -/

/-- The last part of a path, without an ending that is given. -/
def basename (st : State) (args : List Bytes) : State :=
  match args with
  | [] => st.misuse "basename" (Bytes.ofString "missing operand")
  | _ :: _ :: c :: _ => st.misuse "basename" (Bytes.ofString "extra operand " ++ inQuotes c)
  | p :: rest =>
    let name := if p.isEmpty then [] else Path.base p
    let name := match rest with
      | s :: _ =>
        if s.length < name.length && s.reverse.isPrefixOf name.reverse then
          name.take (name.length - s.length)
        else name
      | [] => name
    (st.print name).withStatus 0

/-- The directory part of a path. -/
def directoryName (p : Bytes) : Bytes :=
  let cut := (p.reverse.dropWhile (· == Ascii.slash)).dropWhile (· != Ascii.slash)
  let dir := (cut.dropWhile (· == Ascii.slash)).reverse
  if !dir.isEmpty then dir else if p.head? = some Ascii.slash then [Ascii.slash] else Path.dot

def dirname (st : State) (args : List Bytes) : State :=
  if args.isEmpty then st.misuse "dirname" (Bytes.ofString "missing operand")
  else (st.printLines (args.map directoryName)).withStatus 0

/-! ## Making and taking away -/

/-- Does something with every path, and says what went wrong with it. -/
def State.onPaths (st : State) (name : String) (paths : List Bytes)
    (act : State → Bytes → Except Bytes State) : State :=
  paths.foldl (fun st p =>
    match act st p with
    | .ok st => st
    | .error why => (st.remark name why).withStatus 1) (st.withStatus 0)

/-- A message about a path. -/
def aboutPath (what : String) (p : Bytes) (why : String) : Bytes :=
  Bytes.ofString what ++ inQuotes p ++ Bytes.ofString (": " ++ why)

def touch (st : State) (args : List Bytes) : State :=
  st.withOptions "touch" "acm" "" args fun o =>
    if o.operands.isEmpty then st.misuse "touch" (Bytes.ofString "missing file operand")
    else
      st.onPaths "touch" o.operands fun st p =>
        if (st.node? p).isSome then .ok st
        else
          match st.files.openForWriting p with
          | .ok files => .ok { st with files := files }
          | .error e => .error (aboutPath "cannot touch " p (fileErrorText e))

def mkdir (st : State) (args : List Bytes) : State :=
  st.withOptions "mkdir" "p" "m" args fun o =>
    if o.operands.isEmpty then st.misuse "mkdir" (Bytes.ofString "missing operand")
    else
      st.onPaths "mkdir" o.operands fun st p =>
        let refuse (why : String) : Except Bytes State :=
          .error (aboutPath "cannot create directory " p why)
        let made : State := { st with files := st.files.makeDir (st.absolute p) }
        match st.files.node p with
        | .ok n => if o.has 'p' && n.isDir then .ok st else refuse "File exists"
        | .error .missing =>
          match st.files.node (FileSystem.enclosing p) with
          | .ok (.dir _) => .ok made
          | .ok (.file _) => refuse (fileErrorText .notDirectory)
          | .error e => if o.has 'p' && e = .missing then .ok made else refuse (fileErrorText e)
        | .error e => refuse (fileErrorText e)

def rm (st : State) (args : List Bytes) : State :=
  st.withOptions "rm" "rRfv" "" args fun o =>
    if o.operands.isEmpty then
      if o.has 'f' then st.withStatus 0 else st.misuse "rm" (Bytes.ofString "missing operand")
    else
      st.onPaths "rm" o.operands fun st p =>
        let removed : State := { st with files := st.files.remove (st.absolute p) }
        match st.files.node p with
        | .ok (.dir _) =>
          if o.has 'r' || o.has 'R' then .ok removed
          else .error (aboutPath "cannot remove " p (fileErrorText .isDirectory))
        | .ok (.file _) => .ok removed
        | .error e =>
          if o.has 'f' then .ok st else .error (aboutPath "cannot remove " p (fileErrorText e))

/-- Copies or moves files to another path, or into a directory. -/
def carry (st : State) (name : String) (moves : Bool) (args : List Bytes) : State :=
  st.withOptions name "rRafpv" "" args fun o =>
    match o.operands.getLast?, o.operands.dropLast with
    | none, _ => st.misuse name (Bytes.ofString "missing file operand")
    | some p, [] =>
      st.misuse name (Bytes.ofString "missing destination file operand after " ++ inQuotes p)
    | some goal, sources =>
      st.onPaths name sources fun st p =>
        let target :=
          st.absolute (if st.files.isDir goal then goal ++ Ascii.slash :: Path.base p else goal)
        match st.files.node p with
        | .error e => .error (aboutPath "cannot stat " p (fileErrorText e))
        | .ok n =>
          if n.isDir && !moves && !(o.has 'r' || o.has 'R' || o.has 'a') then
            .error (Bytes.ofString "-r not specified; omitting directory " ++ inQuotes p)
          else
            match st.files.openForWriting target with
            | .ok files =>
              let files := files.change target fun _ => some n
              .ok { st with files := if moves then files.remove (st.absolute p) else files }
            | .error e =>
              .error (aboutPath (if moves then "cannot move " else "cannot create regular file ")
                (if moves then p else goal) (fileErrorText e))

/-- The names in a directory, in order, those with a dot in front left out. -/
def listed (st : State) (all : Bool) (p : Bytes) : List Bytes :=
  (((st.files.entries p).map (·.1)).filter fun n => all || n.head? ≠ some 46).mergeSort fun a b =>
    !(b < a)

/-- Prints the names of files and those in directories. -/
def ls (st : State) (args : List Bytes) : State :=
  st.withOptions "ls" "1aA" "" args fun o =>
    let paths := if o.operands.isEmpty then [Path.dot] else o.operands
    let (st, good) := paths.foldl (fun (st, good) p =>
      match st.files.node p with
      | .ok n => (st, good ++ [(p, n.isDir)])
      | .error e =>
        ((st.remark "ls" (aboutPath "cannot access " p (fileErrorText e))).withStatus 2, good))
      (st.withStatus 0, ([] : List (Bytes × Bool)))
    let files := (good.filter fun g => !g.2).map (·.1)
    let dirs := (good.filter (·.2)).map (·.1)
    let names (d : Bytes) : List Bytes := listed st (o.has 'a' || o.has 'A') d
    let blocks := dirs.map fun d => if 1 < paths.length then (d ++ [58]) :: names d else names d
    let all := (if files.isEmpty then [] else [files]) ++ blocks
    st.printLines ([([] : Bytes)].intercalate all)

end MarkupLint.Shell
