/-
  Expanding words: parameters, substitutions and expressions are put in, what comes from unquoted
  ones is split into fields, and unquoted patterns stand for the files that they match.
-/
import MarkupLint.Shell.Arithmetic
import MarkupLint.Shell.Pattern

namespace MarkupLint.Shell

/-- How a script that stands in a word is run: the state after it, and what it printed. -/
abbrev Substitute := Bytes → State → State × Bytes

/-! ## Parameters -/

/-- A text from texts with a separator between them. -/
def joinWith (separator : Bytes) : List Bytes → Bytes
  | [] => []
  | [s] => s
  | s :: ss => s ++ separator ++ joinWith separator ss

/-- The parameter stands for all arguments. -/
def isArguments (name : Bytes) : Bool := name = [64] || name = [42]

/-- The value of a parameter. -/
def State.value? (st : State) (name : Bytes) : Option Bytes :=
  if name.all Ascii.isDigit then
    match name.foldl (fun n b => n * 10 + (b.toNat - 48)) 0 with
    | 0 => some st.name
    | n + 1 => st.arguments[n]?
  else if isArguments name then
    if st.arguments.isEmpty then none else some (joinWith [32] st.arguments)
  else if name = [dollar] then some State.processNumber
  else if name = [63] then some (Bytes.ofString (toString st.status))
  else if name = [35] then some (Bytes.ofString (toString st.arguments.length))
  else if name = [45] then some []
  else st.lookup? name

/-- The bytes between fields: blanks, and whatever else the script says. -/
def State.separators (st : State) : Bytes :=
  (st.lookup? (Bytes.ofString "IFS")).getD [32, 9, 10]

/-! ## Fields -/

/-- The text of marks. -/
def unmark (ms : List Mark) : Bytes := ms.map (·.byte)

def marks (quoted : Bool) (s : Bytes) : List Mark := s.map fun b => ⟨b, quoted⟩

/-- A piece of a word that was expanded. -/
inductive Piece where
  /-- belongs to its field as it is -/
  | kept (ms : List Mark)
  /-- is split into fields -/
  | loose (ms : List Mark)
  /-- ends the field -/
  | cut
  /-- stands for no field, not even for an empty one -/
  | absent
  deriving DecidableEq, Repr

def isFieldBlank (b : UInt8) : Bool := b = 32 || b = 9 || b = 10

/-- The fields of a word while they are put together. -/
structure Fields where
  /-- the fields that are complete, the last one first -/
  done : List (List Mark) := []
  /-- the field at the end -/
  last : Option (List Mark) := none
  /-- blanks ended the last field, and a separator among them counts as one of them -/
  blank : Bool := false

namespace Fields

/-- Ends the field at the end, if there is one. -/
def close (f : Fields) : Fields :=
  { f with done := f.last.toList ++ f.done, last := none, blank := false }

def add (f : Fields) (ms : List Mark) : Fields :=
  { f with last := some (f.last.getD [] ++ ms), blank := false }

/-- Adds a byte that may be a separator. Blanks around separators are part of them, and two
    separators have an empty field between them. -/
def addLoose (separators : Bytes) (f : Fields) (m : Mark) : Fields :=
  if m.quoted || !separators.contains m.byte then f.add [m]
  else if isFieldBlank m.byte then { f.close with blank := f.blank || f.last.isSome }
  else if f.last.isSome || !f.blank then (f.add []).close
  else f.close

/-- Adds a piece of the word. -/
def addPiece (separators : Bytes) (f : Fields) : Piece → Fields
  | .kept ms => f.add ms
  | .loose ms => ms.foldl (addLoose separators) f
  | .cut => f.close
  | .absent => f

end Fields

/-- The fields of a word that was expanded. -/
def fields (separators : Bytes) (ps : List Piece) : List (List Mark) :=
  let fs := (ps.foldl (Fields.addPiece separators) {}).close.done.reverse
  if ps.contains .absent then fs.filter (!·.isEmpty) else fs

/-- The marks of a word that was expanded and is not split. -/
def Piece.unsplit (ps : List Piece) : List Mark :=
  ps.flatMap fun
    | .kept ms | .loose ms => ms
    | .cut => [⟨32, true⟩]
    | .absent => []

/-! ## Words -/

/-- The shortest or longest piece in front that the pattern matches, cut off. -/
def cutFront (longest : Bool) (ps : List PatternItem) (s : Bytes) : Bytes :=
  let lengths := List.range (s.length + 1)
  match (if longest then lengths.reverse else lengths).find? fun n =>
    patternAccepts ps (s.take n) with
  | some n => s.drop n
  | none => s

/-- The shortest or longest piece at the end that the pattern matches, cut off. -/
def cutBack (longest : Bool) (ps : List PatternItem) (s : Bytes) : Bytes :=
  let lengths := List.range (s.length + 1)
  match (if longest then lengths else lengths.reverse).find? fun n =>
    patternAccepts ps (s.drop n) with
  | some n => s.take n
  | none => s

/-- A text without the newlines at its end. -/
def dropFinalNewlines (s : Bytes) : Bytes := (s.reverse.dropWhile (· == 10)).reverse

/-- The parts of the text behind a parameter, in which blanks are ordinary. -/
def argumentParts : Nat → Bytes → Word
  | 0, _ => []
  | _, [] => []
  | fuel + 1, b :: r =>
    match parts ((b :: r).length + 1) .none (b :: r) with
    | .error _ => [.text (b :: r) true]
    | .ok (w, []) => w
    | .ok (w, c :: rest) => w ++ .text [c] false :: argumentParts fuel rest

/-- The parts of a text between double quotes, which may hold quotes itself. -/
def quotedParts (s : Bytes) : Word :=
  match parts (s.length + 2) .double (s ++ [Ascii.quote]) with
  | .error _ => [.text s true]
  | .ok (w, []) => w
  | .ok (w, c :: rest) => w ++ .text [c] true :: argumentParts (rest.length + 1) rest

/-- The pieces of all arguments. -/
def argumentPieces (st : State) (name : Bytes) (quoted : Bool) : List Piece :=
  if quoted && name = [42] then
    [.kept (marks true (joinWith (st.separators.take 1) st.arguments))]
  else if st.arguments.isEmpty then [.absent]
  else
    [Piece.cut].intercalate (st.arguments.map fun a =>
      [if quoted then .kept (marks true a) else .loose (marks false a)])

/-- The pieces of the value of a parameter. -/
def valuePieces (st : State) (name : Bytes) (quoted : Bool) (value : Bytes) : List Piece :=
  if isArguments name then argumentPieces st name quoted
  else if quoted then [.kept (marks true value)]
  else [.loose (marks false value)]

/-- The pieces of a part. `word` expands words that stand inside of it. -/
def partPieces (run : Substitute) (word : State → Word → State × List Piece) (st : State) :
    Part → State × List Piece
  | .bad => (st.fail (Bytes.ofString "Bad substitution"), [])
  | .text s quoted => (st, [.kept (marks quoted s)])
  | .substitution script quoted =>
    let (st, out) := run script st
    let ms := marks quoted (dropFinalNewlines (out.filter (· != 0)))
    (st, [if quoted then .kept ms else .loose ms])
  | .arithmetic expression quoted =>
    let (st, ps) :=
      word st (((parts (expression.length + 1) .text expression).toOption.map (·.1)).getD [])
    let text := unmark (Piece.unsplit ps)
    match Arithmetic.evaluate st text with
    | .ok (st, n) => (st, [if quoted then .kept (marks true (Arithmetic.showInt n))
        else .loose (marks false (Arithmetic.showInt n))])
    | .error e => (st.fail (e.message text), [])
  | .param name use arg quoted =>
    let value := st.value? name
    let missing (orEmpty : Bool) : Bool := match value with
      | some v => orEmpty && v.isEmpty
      | none => true
    let whole (st : State) (s : Bytes) : State × List Piece :=
      (st, if quoted then [.kept (marks true s)] else [.loose (marks false s)])
    let plain (st : State) : State × List Piece := (st, valuePieces st name quoted (value.getD []))
    let argument (st : State) : State × List Piece :=
      if quoted then
        let (st, ps) := word st (quotedParts arg)
        (st, ps.map fun
          | .kept ms | .loose ms => .kept (marks true (unmark ms))
          | p => p)
      else
        let (st, ps) := word st (argumentParts (arg.length + 1) arg)
        (st, ps.map fun
          | .kept ms => if !ms.isEmpty && ms.all (!·.quoted) then .loose ms else .kept ms
          | p => p)
    let items (st : State) : State × List PatternItem :=
      let (st, ps) := word st (argumentParts (arg.length + 1) arg)
      (st, pattern (Piece.unsplit ps))
    let demanded (k : State → State × List Piece) : State × List Piece :=
      if st.demanding && value.isNone && !isArguments name then
        (st.fail (name ++ Bytes.ofString ": parameter not set"), [])
      else k st
    match use with
    | .value => demanded plain
    | .length =>
      demanded fun st => whole st (Bytes.ofString (toString
        (if isArguments name then st.arguments.length else (value.getD []).length)))
    | .fallback orEmpty => if missing orEmpty then argument st else plain st
    | .other orEmpty => if missing orEmpty then (st, []) else argument st
    | .assign orEmpty =>
      if !missing orEmpty then plain st
      else if !(name.head?.map isNameStart).getD false then
        (st.fail (name ++ Bytes.ofString ": bad variable name"), [])
      else
        let (st, ps) := argument st
        let v := unmark (Piece.unsplit ps)
        whole (st.assign name v) v
    | .demand orEmpty =>
      if !missing orEmpty then plain st
      else
        let (st, ps) := argument st
        let text := if arg.isEmpty then
            Bytes.ofString ("parameter not set" ++ if orEmpty then " or null" else "")
          else unmark (Piece.unsplit ps)
        (st.fail (name ++ Bytes.ofString ": " ++ text), [])
    | .cutFront longest =>
      demanded fun st =>
        let (st, ps) := items st
        whole st (cutFront longest ps (value.getD []))
    | .cutBack longest =>
      demanded fun st =>
        let (st, ps) := items st
        whole st (cutBack longest ps (value.getD []))

/-- The pieces of a word. Words inside of words are shorter, so that their length bounds `depth`. A
    word that ends the script has none. -/
def pieces (run : Substitute) : Nat → State → Word → State × List Piece
  | 0, st, _ => (st, [])
  | depth + 1, st, w =>
    w.foldl (fun (st, done) part =>
      if st.isRunning then
        let (st, more) := partPieces run (pieces run depth) st part
        (st, done ++ more)
      else (st, done)) (st, [])

/-- A bound on how deep words stand in each other. -/
def depthOf (w : Word) : Nat :=
  w.foldl (fun n p => max n (match p with
    | .param _ _ arg _ => arg.length + 2
    | .arithmetic e _ => e.length + 2
    | _ => 1)) 1

/-- A word in which `~` in front stands for the home directory. -/
def homeward (st : State) (w : Word) : Word :=
  match st.lookup? (Bytes.ofString "HOME"), w with
  | some home, [.text [126] false] => [.text home true]
  | some home, .text [126] false :: .text [47] false :: rest =>
    .text home true :: .text [47] false :: rest
  | _, _ => w

/-- The pieces of a word on its own. -/
def wordPieces (run : Substitute) (st : State) (w : Word) : State × List Piece :=
  pieces run (depthOf w) st (homeward st w)

/-! ## File names -/

/-- A field is a pattern. -/
def isPattern (f : List Mark) : Bool := f.any fun m => m.is 42 || m.is 63 || m.is 91

/-- A field cut at its slashes. -/
def splitMarks : List Mark → List (List Mark)
  | [] => [[]]
  | m :: r =>
    if m.byte = Ascii.slash then [] :: splitMarks r
    else match splitMarks r with
      | [] => [[m]]
      | c :: cs => (m :: c) :: cs

/-- The paths that a field stands for, part by part. Names with a dot in front need one in the
    pattern. -/
def paths (st : State) (done : List Bytes) : List (List Mark) → List Bytes
  | [] => done
  | part :: rest =>
    let next := done.flatMap fun lead =>
      if isPattern part then
        let names := (st.files.entries (if lead.isEmpty then Path.dot else lead)).map (·.1)
        let hidden := (part.head?.map fun m => m.byte == 46).getD false
        ((names.filter fun n => (hidden || n.head? ≠ some 46) && patternAccepts
          (pattern part) n).map
          (lead ++ ·)).mergeSort fun a b => !(b < a)
      else [lead ++ unmark part]
    match rest with
    | [] => next
    | _ => paths st (next.map (· ++ [Ascii.slash])) rest

/-- The texts that a field stands for: the files that it matches, or itself. -/
def fieldTexts (st : State) (f : List Mark) : List Bytes :=
  if isPattern f then
    match (paths st [[]] (splitMarks f)).filter fun p => (st.node? p).isSome with
    | [] => [unmark f]
    | ps => ps
  else [unmark f]

/-- The texts that a list of words stands for. -/
def expandWords (run : Substitute) (st : State) : List Word → State × List Bytes
  | [] => (st, [])
  | w :: ws =>
    let (st, ps) := wordPieces run st w
    let texts := (fields st.separators ps).flatMap (fieldTexts st)
    let (st, rest) := expandWords run st ws
    (st, texts ++ rest)

/-- The text of a single word, which is neither split nor matched with files. -/
def expandWord (run : Substitute) (st : State) (w : Word) : State × Bytes :=
  let (st, ps) := wordPieces run st w
  (st, unmark (Piece.unsplit ps))

/-- The pattern of a single word. -/
def expandPattern (run : Substitute) (st : State) (w : Word) : State × List PatternItem :=
  let (st, ps) := wordPieces run st w
  (st, pattern (Piece.unsplit ps))

end MarkupLint.Shell
