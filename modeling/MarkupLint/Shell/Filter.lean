/-
  Commands that read texts and print what they make of them.
-/
import MarkupLint.Shell.Condition

namespace MarkupLint.Shell

/-- The words of a failed file access. -/
def fileErrorText : FileError → String
  | .missing => "No such file or directory"
  | .notDirectory => "Not a directory"
  | .isDirectory => "Is a directory"
  | .nameTooLong => "File name too long"
  | .invalid => "Invalid argument"

/-- An error message of a command. -/
def State.remark (st : State) (name : String) (text : Bytes) : State :=
  st.write 2 (Bytes.ofString (name ++ ": ") ++ text ++ [10])

/-- The command cannot be called like this. -/
def State.misuse (st : State) (name : String) (text : Bytes) : State :=
  ((st.remark name text).write 2
    (Bytes.ofString ("Try '" ++ name ++ " --help' for more information.\n"))).withStatus 1

/-- A text between apostrophes. -/
def inQuotes (s : Bytes) : Bytes := Ascii.apostrophe :: s ++ [Ascii.apostrophe]

/-! ## Options -/

/-- The options of a call, each with its value, and its other arguments. -/
structure Options where
  given : List (UInt8 × Bytes) := []
  operands : List Bytes := []

namespace Options

def has (o : Options) (letter : Char) : Bool := o.given.any fun g => g.1 == UInt8.ofNat letter.toNat

/-- The last value of an option. -/
def value? (o : Options) (letter : Char) : Option Bytes :=
  (o.given.reverse.find? fun g => g.1 == UInt8.ofNat letter.toNat).map fun g => g.2

/-- The options in one argument, behind its dash: those that take no value, and one that takes the
    rest. `none` in place of a value tells that it is the next argument. -/
def cluster (plain valued : Bytes) : Bytes → Except Bytes (List (UInt8 × Option Bytes))
  | [] => .ok []
  | b :: r =>
    if plain.contains b then (cluster plain valued r).map ((b, some []) :: ·)
    else if valued.contains b then .ok [(b, if r.isEmpty then none else some r)]
    else .error (Bytes.ofString "invalid option -- " ++ inQuotes [b])

/-- Reads arguments. Options may stand anywhere before `--`. -/
def readFrom (plain valued : Bytes) : List Bytes → Except Bytes Options
  | [] => .ok {}
  | a :: rest =>
    if a = Bytes.ofString "--" then .ok { operands := rest }
    else
      match a with
      | 45 :: b :: r => do
        let os ← cluster plain valued (b :: r)
        match os.getLast? with
        | some (letter, none) =>
          match rest with
          | [] => .error (Bytes.ofString "option requires an argument -- " ++ inQuotes [letter])
          | v :: rest' => do
            let more ← readFrom plain valued rest'
            pure { more with
              given := os.dropLast.map (fun o => (o.1, o.2.getD [])) ++ (letter, v) :: more.given }
        | _ => do
          let more ← readFrom plain valued rest
          pure { more with given := os.map (fun o => (o.1, o.2.getD [])) ++ more.given }
      | _ => do
        let more ← readFrom plain valued rest
        pure { more with operands := a :: more.operands }

end Options

/-- Calls a command with its options read. -/
def State.withOptions (st : State) (name plain valued : String) (args : List Bytes)
    (body : Options → State) : State :=
  match Options.readFrom (Bytes.ofString plain) (Bytes.ofString valued) args with
  | .ok o => body o
  | .error why => st.misuse name why

/-! ## Texts -/

/-- A file cannot be read. -/
def cannotRead (p : Bytes) (e : FileError) : Bytes := p ++ Bytes.ofString (": " ++ fileErrorText e)

/-- A file cannot be read, in the words of some commands. -/
def cannotOpen (p : Bytes) : FileError → Bytes
  | .isDirectory =>
    Bytes.ofString "error reading " ++ inQuotes p ++ Bytes.ofString ": Is a directory"
  | e =>
    Bytes.ofString "cannot open " ++ inQuotes p ++
      Bytes.ofString (" for reading: " ++ fileErrorText e)

/-- The text of a file, or of the input. -/
def State.text (st : State) (p : Bytes) : Except FileError (Bytes × State) :=
  st.take (if p = [Ascii.dash] then State.inputPath else p)

/-- The texts that a command works on: those of files, each with its path, or the input. -/
def State.texts (st : State) (name : String) (complaint : Bytes → FileError → Bytes)
    (paths : List Bytes) : State × List (Bytes × Bytes) :=
  (if paths.isEmpty then [[Ascii.dash]] else paths).foldl (fun (st, ts) p =>
    match st.text p with
    | .ok (s, st) => (st, ts ++ [(p, s)])
    | .error e => ((st.remark name (complaint p e)).withStatus 1, ts)) (st.withStatus 0, [])

/-- The lines of a text, each with the newline that ends it. -/
def linesOf (s : Bytes) : List Bytes :=
  let ls := Bytes.splitAt 10 s
  ls.dropLast.map (· ++ [10]) ++ ls.getLast?.toList.filter (!·.isEmpty)

/-- A line without its newline. -/
def bareLine (l : Bytes) : Bytes := if l.getLast? = some 10 then l.dropLast else l

/-- A number in decimal, brought to a width. -/
def countText (width n : Nat) : Bytes :=
  let ds := Bytes.ofString (toString n)
  List.replicate (width - ds.length) (32 : UInt8) ++ ds

/-- The value of a run of digits. -/
def digitsOf? (s : Bytes) : Option Nat :=
  if s.isEmpty || !s.all Ascii.isDigit then none
  else some (s.foldl (fun n b => n * 10 + (b.toNat - 48)) 0)

/-! ## Whole texts -/

/-- Prints texts one after the other, their lines numbered if that is asked for. -/
def cat (st : State) (args : List Bytes) : State :=
  st.withOptions "cat" "nu" "" args fun o =>
    let (st, ts) := st.texts "cat" cannotRead o.operands
    let all := ts.flatMap (·.2)
    if o.has 'n' then
      st.write 1 ((linesOf all).zipIdx.flatMap fun (l, n) => countText 6 (n + 1) ++ 9 :: l)
    else st.write 1 all

/-- Prints the input and copies it to files. -/
def tee (st : State) (args : List Bytes) : State :=
  st.withOptions "tee" "ai" "" args fun o =>
    let s := st.input
    let st := o.operands.foldl (fun (st : State) p =>
      if p = State.nullPath then st
      else
        match st.files.openForWriting p with
        | .ok files =>
          let old := if o.has 'a' then (files.read p).toOption.getD [] else []
          { st with files := files.write (st.absolute p) (old ++ s) }
        | .error e => (st.remark "tee" (cannotRead p e)).withStatus 1)
      ({ st with input := [] }.withStatus 0)
    st.write 1 s

/-! ## Ends of texts -/

/-- Prints texts with their names above them when there are several. -/
def State.writeNamed (st : State) (ts : List (Bytes × Bytes)) : State :=
  match ts with
  | [(_, s)] => st.write 1 s
  | ts =>
    ts.zipIdx.foldl (fun st ((p, s), n) =>
      let name := if p = [Ascii.dash] then Bytes.ofString "standard input" else p
      st.write 1 ((if n = 0 then [] else [10]) ++ Bytes.ofString "==> " ++ name ++
        Bytes.ofString " <==\n" ++ s)) st

/-- Arguments in which a number of lines behind a dash is spelled out. -/
def spellCount : List Bytes → List Bytes
  | (45 :: d :: ds) :: rest =>
    if Ascii.isDigit d then Bytes.ofString "-n" :: (d :: ds) :: rest else (45 :: d :: ds) :: rest
  | args => args

/-- The end of a text that is asked for: a sign, a number, and whether bytes are counted. -/
def endOf (st : State) (name : String) (args : List Bytes)
    (body : Option UInt8 → Nat → Bool → Options → State) : State :=
  st.withOptions name "qv" "nc" (spellCount args) fun o =>
    let bytes := o.given.getLast?.any fun g => g.1 == 99
    let given := (if bytes then o.value? 'c' else o.value? 'n').getD (Bytes.ofString "10")
    let (sign, digits) : Option UInt8 × Bytes := match given with
      | 45 :: r => (some 45, r)
      | 43 :: r => (some 43, r)
      | r => (none, r)
    match digitsOf? digits with
    | some n => body sign n bytes o
    | none =>
      let what := if bytes then "bytes" else "lines"
      (st.remark name
        (Bytes.ofString ("invalid number of " ++ what ++ ": ") ++ inQuotes given)).withStatus 1

/-- Prints the first lines or bytes of texts, or all but the last ones. -/
def head (st : State) (args : List Bytes) : State :=
  endOf st "head" args fun sign n bytes o =>
    let cut (s : Bytes) : Bytes :=
      let ls := if bytes then s.map ([·]) else linesOf s
      (ls.take (if sign = some 45 then ls.length - n else n)).flatten
    let (st, ts) := st.texts "head" cannotOpen o.operands
    st.writeNamed (ts.map fun (p, s) => (p, cut s))

/-- Prints the last lines or bytes of texts, or those from a place on. -/
def tail (st : State) (args : List Bytes) : State :=
  endOf st "tail" args fun sign n bytes o =>
    let cut (s : Bytes) : Bytes :=
      let ls := if bytes then s.map ([·]) else linesOf s
      (ls.drop (if sign = some 43 then n - 1 else ls.length - n)).flatten
    let (st, ts) := st.texts "tail" cannotOpen o.operands
    st.writeNamed (ts.map fun (p, s) => (p, cut s))

/-! ## Counting -/

/-- The number of words in a text. -/
def wordCount (s : Bytes) : Nat :=
  (s.foldl (fun (n, inside) b =>
    if Ascii.isSpace b || b = 11 then (n, false) else (if inside then n else n + 1, true))
      (0, false)).1

/-- Counts the lines, words and bytes of texts. -/
def count (st : State) (args : List Bytes) : State :=
  st.withOptions "wc" "lwcm" "" args fun o =>
    let kinds := "lwcm".toList.filter o.has
    let kinds := if kinds.isEmpty then "lwc".toList else kinds
    let counts (s : Bytes) : List Nat := kinds.map fun k =>
      if k = 'l' then s.count 10 else if k = 'w' then wordCount s else s.length
    let (st, ts) := st.texts "wc" cannotRead o.operands
    let sizes := ts.map fun t => t.2.length
    let width := if kinds.length = 1 && ts.length ≤ 1 then 1
      else if o.operands.isEmpty || o.operands.contains [Ascii.dash] then 7
      else (toString (sizes.foldl (· + ·) 0)).length
    let row (ns : List Nat) (name : Bytes) : Bytes :=
      joinBlank (ns.map (countText width)) ++ (if name.isEmpty then [] else 32 :: name) ++ [10]
    let rows := ts.flatMap fun (p, s) => row (counts s) (if o.operands.isEmpty then [] else p)
    let total := if ts.length < 2 then []
      else row (ts.foldl (fun ns t => List.zipWith (· + ·) ns (counts t.2)) (kinds.map fun _ => 0))
        (Bytes.ofString "total")
    st.write 1 (rows ++ total)

end MarkupLint.Shell
