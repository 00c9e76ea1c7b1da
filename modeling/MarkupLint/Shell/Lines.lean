/-
  Commands that put other bytes in place of bytes, and those that choose or order lines.
-/
import MarkupLint.Shell.Filter

namespace MarkupLint.Shell

/-! ## Bytes -/

/-- The bytes of a class in a set of bytes. -/
def byteClass? (name : Bytes) : Option Bytes :=
  let all := (List.range 256).map UInt8.ofNat
  match String.ofList (name.map fun b => Char.ofNat b.toNat) with
  | "lower" => some (all.filter Ascii.isLower)
  | "upper" => some (all.filter Ascii.isUpper)
  | "alpha" => some (all.filter Ascii.isLetter)
  | "digit" => some (all.filter Ascii.isDigit)
  | "alnum" => some (all.filter fun b => Ascii.isLetter b || Ascii.isDigit b)
  | "space" => some (all.filter fun b => 9 ≤ b && b ≤ 13 || b = 32)
  | "blank" => some [9, 32]
  | "punct" =>
    some (all.filter fun b => 33 ≤ b && b ≤ 126 && !(Ascii.isLetter b || Ascii.isDigit b))
  | _ => none

/-- The bytes from one to another. -/
def byteRange (a b : UInt8) : Bytes :=
  (List.range (b.toNat + 1 - a.toNat)).map fun n => UInt8.ofNat (a.toNat + n)

/-- A byte of a set, with its escape taken apart, and how many bytes it takes. -/
def setByte (b : UInt8) (r : Bytes) : UInt8 × Nat :=
  if b ≠ backslash then (b, 1)
  else
    let (x, n) := escape true r
    if n = 0 then (r.head?.getD backslash, 1 + min r.length 1) else (x, n + 1)

/-- The bytes that a set lists. Every step takes a byte, which bounds `fuel`. -/
def byteSet : Nat → Bytes → Bytes
  | 0, _ => []
  | _, [] => []
  | fuel + 1, b :: r =>
    let named := match b :: r with
      | 91 :: 58 :: r' =>
        let name := r'.takeWhile (· != 58)
        if (Bytes.ofString ":]").isPrefixOf (r'.drop name.length) then
          (byteClass? name).map fun bs => (bs, r'.drop (name.length + 2))
        else none
      | _ => none
    match named with
    | some (bs, rest) => bs ++ byteSet fuel rest
    | none =>
      let (lo, n) := setByte b r
      match (b :: r).drop n with
      | 45 :: c :: r' =>
        let (hi, m) := setByte c r'
        byteRange lo hi ++ byteSet fuel ((c :: r').drop m)
      | rest => lo :: byteSet fuel rest

/-- Runs of a byte of the set, made one. -/
def squeeze (set : Bytes) : Bytes → Bytes
  | a :: b :: r =>
    if a = b && set.contains a then squeeze set (b :: r) else a :: squeeze set (b :: r)
  | s => s

/-- Puts the bytes of one set in place of those of another, or takes them away. -/
def tr (st : State) (args : List Bytes) : State :=
  st.withOptions "tr" "cCdst" "" args fun o =>
    let set (s : Bytes) : Bytes := byteSet (s.length + 1) s
    let first (s : Bytes) : Bytes :=
      if o.has 'c' || o.has 'C' then
        ((List.range 256).map UInt8.ofNat).filter fun b => !(set s).contains b
      else set s
    let done (f : Bytes → Bytes) : State :=
      ({ st with input := [] }.write 1 (f st.input)).withStatus 0
    match o.operands with
    | [] => st.misuse "tr" (Bytes.ofString "missing operand")
    | [a] =>
      if o.has 'd' then done fun s => s.filter fun b => !(first a).contains b
      else if o.has 's' then done (squeeze (first a))
      else
        st.misuse "tr" (Bytes.ofString "missing operand after " ++ inQuotes a ++
          Bytes.ofString "\nTwo strings must be given when translating.")
    | a :: b :: _ =>
      let olds := first a
      let news := set b
      let swap (x : UInt8) : UInt8 :=
        match olds.reverse.idxOf? x with
        | some n => (news[olds.length - 1 - n]?.or news.getLast?).getD x
        | none => x
      if o.has 'd' then done fun s => squeeze news (s.filter fun x => !olds.contains x)
      else done fun s => if o.has 's' then squeeze news (s.map swap) else s.map swap

/-! ## Lines -/

/-- The number in front of a line, by which it is ordered. -/
def lineNumber (l : Bytes) : Int :=
  match l.dropWhile fun b => b = 32 || b = 9 with
  | 45 :: r => -((digitsOf? (r.takeWhile Ascii.isDigit)).getD 0 : Nat)
  | r => ((digitsOf? (r.takeWhile Ascii.isDigit)).getD 0 : Nat)

/-- The lines of texts, without their newlines. -/
def State.bareLines (st : State) (name : String) (complaint : Bytes → FileError → Bytes)
    (paths : List Bytes) : State × List Bytes :=
  let (st, ts) := st.texts name complaint paths
  (st, ts.flatMap fun t => (linesOf t.2).map bareLine)

def State.printLines (st : State) (ls : List Bytes) : State := st.write 1 (ls.flatMap (· ++ [10]))

/-- A list without the elements that equal the one before them. -/
def distinct [DecidableEq α] : List α → List α
  | a :: b :: r => if a = b then distinct (b :: r) else a :: distinct (b :: r)
  | s => s

/-- Prints lines in order. -/
def sort (st : State) (args : List Bytes) : State :=
  st.withOptions "sort" "rnuf" "" args fun o =>
    let (st, ls) :=
      st.bareLines "sort" (fun p e => Bytes.ofString "cannot read: " ++ cannotRead p e)
      o.operands
    if st.status ≠ 0 then st.withStatus 2
    else
      let key (l : Bytes) : Bytes := if o.has 'f' then l.map Ascii.upper else l
      let before (a b : Bytes) : Bool :=
        if o.has 'n' && lineNumber a ≠ lineNumber b then lineNumber a < lineNumber b
        else if key a ≠ key b then key a < key b else a ≤ b
      let sorted := ls.mergeSort fun a b => if o.has 'r' then before b a else before a b
      st.printLines (if o.has 'u' then distinct sorted else sorted)

/-- Lines that are the same and follow each other, with their number. -/
def lineRuns : List Bytes → List (Bytes × Nat)
  | [] => []
  | l :: ls =>
    match lineRuns ls with
    | (m, n) :: rest => if l = m then (m, n + 1) :: rest else (l, 1) :: (m, n) :: rest
    | [] => [(l, 1)]

/-- Prints lines once where they follow each other. -/
def uniq (st : State) (args : List Bytes) : State :=
  st.withOptions "uniq" "cdu" "" args fun o =>
    let (st, ls) := st.bareLines "uniq" cannotRead (o.operands.take 1)
    let runs := (lineRuns ls).filter fun r => (!o.has 'd' || 1 < r.2) && (!o.has 'u' || r.2 = 1)
    st.printLines (runs.map fun (l, n) => if o.has 'c' then countText 7 n ++ 32 :: l else l)

/-- The places that a list of numbers and ranges names; `none` when it is no such list. -/
def placeList? (s : Bytes) : Option (List (Nat × Option Nat)) :=
  (Bytes.splitAt 44 s).mapM fun item =>
    match Bytes.splitAt 45 item with
    | [a] => (digitsOf? a).map fun n => (n, some n)
    | [a, b] =>
      let lo := if a.isEmpty then some 1 else digitsOf? a
      if b.isEmpty then if a.isEmpty then none else lo.map (·, none)
      else lo.bind fun n => (digitsOf? b).map fun m => (n, some m)
    | _ => none

def inPlaces (ps : List (Nat × Option Nat)) (n : Nat) : Bool :=
  ps.any fun (lo, hi) => lo ≤ n && (hi.map fun h => decide (n ≤ h)).getD true

/-- The elements at some places. -/
def chosen (ps : List (Nat × Option Nat)) (xs : List α) : List α :=
  (xs.zipIdx.filter fun x => inPlaces ps (x.2 + 1)).map fun x => x.1

/-- Prints some bytes or fields of every line. -/
def cut (st : State) (args : List Bytes) : State :=
  st.withOptions "cut" "sn" "dfcb" args fun o =>
    let byBytes := o.has 'c' || o.has 'b'
    match ((o.value? 'f').or ((o.value? 'c').or (o.value? 'b'))).map placeList? with
    | none =>
      st.misuse "cut" (Bytes.ofString "you must specify a list of bytes, characters, or fields")
    | some none => st.misuse "cut" (Bytes.ofString "invalid field range")
    | some (some places) =>
      let mark := ((o.value? 'd').bind (·.head?)).getD 9
      let (st, ls) := st.bareLines "cut" cannotRead o.operands
      st.printLines (ls.filterMap fun l =>
        if byBytes then some (chosen places l)
        else if l.contains mark then
          some ([mark].intercalate (chosen places (Bytes.splitAt mark l)))
        else if o.has 's' then none else some l)

/-- A signed decimal number. -/
def integerOf? (s : Bytes) : Option Int :=
  match s with
  | 45 :: r => (digitsOf? r).map fun n => -(n : Int)
  | 43 :: r => (digitsOf? r).map Int.ofNat
  | _ => (digitsOf? s).map Int.ofNat

/-- Prints numbers from one to another. -/
def seq (st : State) (args : List Bytes) : State :=
  match args.find? fun a => (integerOf? a).isNone with
  | some a => st.misuse "seq" (Bytes.ofString "invalid floating point argument: " ++ inQuotes a)
  | none =>
    match args.filterMap integerOf? with
    | [] => st.misuse "seq" (Bytes.ofString "missing operand")
    | n :: ns =>
      let (first, step, last) := match ns with
        | [] => (1, 1, n)
        | [m] => (n, 1, m)
        | s :: m :: _ => (n, s, m)
      let count := if step = 0 then 0 else ((last - first).fdiv step + 1).toNat
      let numbers := (List.range count).map fun (k : Nat) => first + step * k
      (st.printLines (numbers.map Arithmetic.showInt)).withStatus 0

end MarkupLint.Shell
