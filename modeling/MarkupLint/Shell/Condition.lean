/-
  Conditions on texts, numbers and files, joined by `-a`, `-o` and `!`.
-/
import MarkupLint.Shell.Print

namespace MarkupLint.Shell.Condition

/-- What a word may be in a condition. -/
inductive Operator where
  | unary (s : String)
  | binary (s : String)
  | and
  | or
  | not
  | opening
  | closing
  deriving DecidableEq, Repr

def unaries : List String :=
  ["-r", "-w", "-x", "-e", "-f", "-d", "-c", "-b", "-p", "-u", "-g", "-k", "-s", "-t", "-z",
    "-n", "-h",
   "-L", "-O", "-G", "-S"]

def binaries : List String :=
  ["=", "!=", "<", ">", "-eq", "-ne", "-ge", "-gt", "-le", "-lt", "-nt", "-ot", "-ef"]

def Operator.ofWord? (w : Bytes) : Option Operator :=
  match unaries.find? (Bytes.ofString · == w), binaries.find? (Bytes.ofString · == w) with
  | some s, _ => some (.unary s)
  | _, some s => some (.binary s)
  | none, none =>
    if w = Bytes.ofString "-a" then some .and else if w = Bytes.ofString "-o" then some .or
    else if w = Bytes.ofString "!" then some .not else if w = [openParen] then some .opening
    else if w = [closeParen] then some .closing else none

def isBinary (w : Bytes) : Bool :=
  match Operator.ofWord? w with
  | some (.binary _) => true
  | _ => false

/-- The operator in front of the words, if its place lets it be one: an operator on one operand
    needs one, and a word before a comparison is an operand itself. -/
def operator? : List Bytes → Option Operator
  | [] => none
  | w :: rest =>
    match Operator.ofWord? w with
    | some (.unary s) =>
      match rest with
      | [] => none
      | [_] => some (.unary s)
      | next :: _ => if isBinary next then none else some (.unary s)
    | some .opening => if rest.isEmpty then none else some .opening
    | o => o

/-- Whether a test of a single word holds. -/
def unary (st : State) (op : String) (w : Bytes) : Bool :=
  match op with
  | "-z" => w.isEmpty
  | "-n" => !w.isEmpty
  | "-f" => (st.files.node w).toOption.any fun n => !n.isDir
  | "-d" | "-x" => st.files.isDir w
  | "-s" =>
    match st.files.node w with
    | .ok (.file s) => !s.isEmpty
    | .ok (.dir _) => true
    | .error _ => false
  | "-e" | "-r" | "-w" => (st.node? w).isSome
  | "-O" | "-G" => (st.node? w).isSome
  | _ => false

/-- An operand that has to be a decimal number. -/
def number (w : Bytes) : Except Bytes Int :=
  let wrong : Bytes := Bytes.ofString "Illegal number: " ++ w
  let t := w.dropWhile Ascii.isSpace
  let (negative, r) := match t with
    | 45 :: r => (true, r)
    | 43 :: r => (false, r)
    | r => (false, r)
  let ds := r.takeWhile Ascii.isDigit
  if ds.isEmpty || !(r.drop ds.length).all Ascii.isSpace then .error wrong
  else
    let n : Int := (ds.foldl (fun n b => n * 10 + (b.toNat - 48)) 0 : Nat)
    .ok (if negative then -n else n)

/-- Whether a comparison holds. -/
def binary (op : String) (a b : Bytes) : Except Bytes Bool :=
  let numbers (f : Int → Int → Bool) : Except Bytes Bool := do
    let x ← number a
    let y ← number b
    pure (f x y)
  match op with
  | "=" => .ok (a = b)
  | "!=" => .ok (a ≠ b)
  | "<" => .ok (a < b)
  | ">" => .ok (b < a)
  | "-eq" => numbers (· == ·)
  | "-ne" => numbers (· != ·)
  | "-ge" => numbers (· ≥ ·)
  | "-gt" => numbers (· > ·)
  | "-le" => numbers (· ≤ ·)
  | "-lt" => numbers (· < ·)
  | _ => .ok false

mutual

/-- Conditions joined by `-o`: whether they hold, and the words from the last one that was read.
    Each step takes a word, which bounds `fuel`. -/
def any (st : State) : Nat → List Bytes → Except Bytes (Bool × List Bytes)
  | 0, ws => .ok (false, ws)
  | fuel + 1, ws => do
    let (a, ws) ← all st fuel ws
    if operator? (ws.drop 1) = some .or then
      let (b, ws) ← any st fuel (ws.drop 2)
      pure (a || b, ws)
    else pure (a, ws)

/-- Conditions joined by `-a`. -/
def all (st : State) : Nat → List Bytes → Except Bytes (Bool × List Bytes)
  | 0, ws => .ok (false, ws)
  | fuel + 1, ws => do
    let (a, ws) ← negated st fuel ws
    if operator? (ws.drop 1) = some .and then
      let (b, ws) ← all st fuel (ws.drop 2)
      pure (a && b, ws)
    else pure (a, ws)

/-- A condition that may be turned around. -/
def negated (st : State) : Nat → List Bytes → Except Bytes (Bool × List Bytes)
  | 0, ws => .ok (false, ws)
  | fuel + 1, ws =>
    if operator? ws = some .not then do
      let (a, rest) ← (if ws.length ≤ 1 then .ok (false, ws) else negated st fuel (ws.drop 1) :
        Except Bytes (Bool × List Bytes))
      pure (!a, rest)
    else single st fuel ws

/-- A condition on its own. -/
def single (st : State) : Nat → List Bytes → Except Bytes (Bool × List Bytes)
  | 0, ws => .ok (false, ws)
  | fuel + 1, ws =>
    match ws with
    | [] => .ok (false, [])
    | w :: rest =>
      match operator? ws with
      | some .opening =>
        if operator? rest = some .closing then .ok (false, rest)
        else do
          let (a, ws) ← any st fuel rest
          if operator? (ws.drop 1) = some .closing then pure (a, ws.drop 1)
          else .error (Bytes.ofString "closing paren expected")
      | some (.unary op) =>
        match rest with
        | [] => .error (w ++ Bytes.ofString ": argument expected")
        | a :: _ => .ok (unary st op a, rest)
      | _ =>
        match rest with
        | o :: rest' =>
          match operator? rest with
          | some (.binary op) =>
            match rest' with
            | [] => .error (o ++ Bytes.ofString ": argument expected")
            | b :: _ => do pure (← binary op w b, rest')
          | _ => .ok (!w.isEmpty, ws)
        | [] => .ok (!w.isEmpty, ws)

end

/-- Whether a condition holds that may have further ones joined to it. -/
def whole (st : State) (ws : List Bytes) : Except Bytes Bool := do
  let (a, rest) ← any st (4 * ws.length + 4) ws
  match rest with
  | w :: _ :: _ =>
    .error (if w.isEmpty then Bytes.ofString "unexpected operator"
      else w ++ Bytes.ofString ": unexpected operator")
  | _ => pure a

/-- Whether the condition that the words state holds, or what is wrong with it. Three words with a
    comparison in the middle are one, whatever else the others could mean. -/
def holds (st : State) : List Bytes → Except Bytes Bool
  | [] => .ok false
  | [a, op, b] =>
    match Operator.ofWord? op with
    | some (.binary op) => binary op a b
    | _ =>
      if a = [openParen] && b = [closeParen] then whole st [op]
      else if a = Bytes.ofString "!" then (whole st [op, b]).map (!·)
      else whole st [a, op, b]
  | [a, b, c, d] =>
    if a = [openParen] && d = [closeParen] then whole st [b, c]
    else if a = Bytes.ofString "!" then (holds st [b, c, d]).map (!·)
    else whole st [a, b, c, d]
  | ws => whole st ws
termination_by ws => ws.length

/-- States a condition. -/
def state (st : State) (name : String) (ws : List Bytes) : State :=
  match holds st ws with
  | .ok true => st.withStatus 0
  | .ok false => st.withStatus 1
  | .error why => st.refuse (Bytes.ofString (name ++ ": ") ++ why)

end MarkupLint.Shell.Condition
