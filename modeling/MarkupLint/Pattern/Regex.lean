/-
  Regular expressions with captures, and how they are matched.

  An expression is turned into a list of instructions, and a text is read by all threads of it at
  once, in the order of their preference. So matching takes time in proportion to the text, and of
  all matches the leftmost one is found, and of those the one that trying the alternatives in order
  would find first.
-/
import MarkupLint.Pattern.CharSet

namespace MarkupLint.Pattern

/-- A condition on a place in the text. -/
inductive Assertion where
  | textStart | textEnd | lineStart | lineEnd | wordEdge | noWordEdge
  deriving DecidableEq, Repr

inductive Regex where
  | empty
  | one (s : CharSet)
  | assert (a : Assertion)
  | seq (a b : Regex)
  | alt (a b : Regex)
  /-- any number of times, as often as possible when `greedy`, else as seldom -/
  | star (greedy : Bool) (a : Regex)
  | plus (greedy : Bool) (a : Regex)
  | opt (greedy : Bool) (a : Regex)
  /-- from `min` to `max` times, without an upper limit when `max` is `none` -/
  | times (greedy : Bool) (min : Nat) (max : Option Nat) (a : Regex)
  /-- what `a` matches is kept as the capture with this number -/
  | group (number : Nat) (a : Regex)
  deriving DecidableEq, Repr

namespace Regex

/-- The expression matches the empty text somewhere. -/
def nullable : Regex → Bool
  | .empty => true
  | .one _ => false
  | .assert _ => true
  | .seq a b => a.nullable && b.nullable
  | .alt a b => a.nullable || b.nullable
  | .star .. => true
  | .plus _ a => a.nullable
  | .opt .. => true
  | .times _ min _ a => min == 0 || a.nullable
  | .group _ a => a.nullable

/-- All repetition counts multiplied along any chain of nesting stay within `n`. -/
def countsWithin (n : Nat) : Regex → Bool
  | .times _ min max a =>
    let m := max.getD min
    if m = 0 then max.isSome || a.countsWithin n
    else if n < m then false else a.countsWithin (n / m)
  | .seq a b | .alt a b => a.countsWithin n && b.countsWithin n
  | .star _ a | .plus _ a | .opt _ a | .group _ a => a.countsWithin n
  | .empty | .one _ | .assert _ => true

/-- How deep an expression is nested, and what bears on the depth of one that holds it. -/
structure Extent where
  height : Nat
  /-- the greatest height among the parts of a sequence, or else the height -/
  ofPart : Nat
  /-- the greatest height among alternatives, or else the height -/
  ofBranch : Nat
  /-- a text, with this rule about letter case -/
  text : Option Bool
  /-- one character of a set -/
  isSet : Bool

namespace Extent

/-- The extent of an expression that is neither a sequence nor a choice. -/
def plain (height : Nat) : Extent := ⟨height, height, height, none, false⟩

/-- A sequence in a sequence adds no height, and characters in a row are one text. -/
def seq (a b : Extent) : Extent :=
  if a.text.isSome && a.text = b.text then ⟨1, 1, 1, a.text, false⟩
  else
    let inner := max a.ofPart b.ofPart
    ⟨inner + 1, inner, inner + 1, none, false⟩

/-- A choice in a choice adds no height, and a choice of characters is a set of them. -/
def alt (a b : Extent) : Extent :=
  if a.isSet && b.isSet then ⟨1, 1, 1, none, true⟩
  else
    let inner := max a.ofBranch b.ofBranch
    ⟨inner + 1, inner + 1, inner, none, false⟩

end Extent

/-- The extent of an expression. -/
def extent : Regex → Extent
  | .empty | .assert _ => .plain 1
  | .one s => { Extent.plain 1 with text := s.single?.map (·.2), isSet := true }
  | .seq a b => a.extent.seq b.extent
  | .alt a b => a.extent.alt b.extent
  | .star _ a | .plus _ a | .opt _ a | .times _ _ _ a | .group _ a => .plain (a.extent.height + 1)

/-- How deep the expression is nested. -/
def height (r : Regex) : Nat := r.extent.height

end Regex

/-! ## Instructions -/

/-- An instruction. Targets are distances from the instruction itself. -/
inductive Instruction where
  | one (s : CharSet)
  | assert (a : Assertion)
  | save (slot : Nat)
  | jump (distance : Int)
  /-- go on at both targets, the first one preferred -/
  | split (first second : Int)
  | accept
  deriving DecidableEq, Repr

namespace Regex

/-- A choice between going on here and going on at `far`. -/
def choice (greedy : Bool) (far : Int) : Instruction :=
  if greedy then .split 1 far else .split far 1

def plusCode (greedy : Bool) (body : List Instruction) : List Instruction :=
  let back : Int := -(body.length : Int)
  body ++ [if greedy then .split back 1 else .split 1 back]

def optCode (greedy : Bool) (body : List Instruction) : List Instruction :=
  choice greedy (body.length + 1) :: body

def starCode (greedy nullable : Bool) (body : List Instruction) : List Instruction :=
  -- a body that may match nothing runs at least once, so that its captures are set
  if nullable then optCode greedy (plusCode greedy body)
  else choice greedy (body.length + 2) :: body ++ [.jump (-((body.length : Int) + 1))]

/-- Up to `n` times, each further time only after the one before. -/
def upToCode (greedy : Bool) (body : List Instruction) : Nat → List Instruction
  | 0 => []
  | n + 1 => optCode greedy (body ++ upToCode greedy body n)

/-- The same code `n` times. -/
def copies (n : Nat) (body : List Instruction) : List Instruction := (List.replicate n body).flatten

/-- The instructions of an expression. They end where they go on. -/
def code : Regex → List Instruction
  | .empty => []
  | .one s => [.one s]
  | .assert a => [.assert a]
  | .seq a b => a.code ++ b.code
  | .alt a b =>
    .split 1 (a.code.length + 2) :: a.code ++ [.jump (b.code.length + 1)] ++ b.code
  | .star greedy a => starCode greedy a.nullable a.code
  | .plus greedy a => plusCode greedy a.code
  | .opt greedy a => optCode greedy a.code
  | .times greedy min max a =>
    match max with
    | some max => copies min a.code ++ upToCode greedy a.code (max - min)
    | none =>
      if min = 0 then starCode greedy a.nullable a.code
      else copies (min - 1) a.code ++ plusCode greedy a.code
  | .group n a => .save (2 * n) :: a.code ++ [.save (2 * n + 1)]

end Regex

/-- A program: instructions that end in `accept`. -/
abbrev Program := Array Instruction

def Regex.program (r : Regex) : Program := (r.code ++ [Instruction.accept]).toArray

/-! ## Threads -/

/-- A thread: the instruction that it stands at, and the places that it saved, the latest first. -/
structure Thread where
  instr : Nat
  saved : List (Nat × Nat)

/-- The place of a text that the threads have reached: its number and the characters around it. -/
structure Spot where
  index : Nat
  before : Option Char
  after : Option Char

def Spot.isEdge (s : Spot) : Bool :=
  ((s.before.map isWord).getD false) != ((s.after.map isWord).getD false)

def Assertion.holds (s : Spot) : Assertion → Bool
  | .textStart => s.before.isNone
  | .textEnd => s.after.isNone
  | .lineStart => s.before.isNone || s.before = some '\n'
  | .lineEnd => s.after.isNone || s.after = some '\n'
  | .wordEdge => s.isEdge
  | .noWordEdge => !s.isEdge

/-- The target of a jump. -/
def target (n : Nat) (d : Int) : Nat := ((n : Int) + d).toNat

/-- Follows the threads of a stack, in order, to where they need a character or accept; an
    instruction that was reached before is not followed again. Every thread on the stack is taken
    off once, and an instruction puts at most two back, which bounds `fuel`. -/
def follow (p : Program) (s : Spot) : Nat → List Thread → Array Bool → List Thread → List Thread
  | 0, _, _, done => done.reverse
  | _, [], _, done => done.reverse
  | fuel + 1, t :: stack, visited, done =>
    if visited[t.instr]?.getD true then follow p s fuel stack visited done
    else
      let visited := visited.setIfInBounds t.instr true
      let go (d : Int) : Thread := { t with instr := target t.instr d }
      match p[t.instr]? with
      | some (.jump d) => follow p s fuel (go d :: stack) visited done
      | some (.split a b) => follow p s fuel (go a :: go b :: stack) visited done
      | some (.save slot) =>
        follow p s fuel (⟨t.instr + 1, (slot, s.index) :: t.saved⟩ :: stack) visited done
      | some (.assert a) =>
        if a.holds s then follow p s fuel (go 1 :: stack) visited done
        else follow p s fuel stack visited done
      | some (.one _) | some .accept => follow p s fuel stack visited (t :: done)
      | none => follow p s fuel stack visited done

/-- The threads that stand at a character or accept, from the given ones on. -/
def settle (p : Program) (s : Spot) (ts : List Thread) : List Thread :=
  follow p s (ts.length + 2 * p.size + 1) ts (Array.replicate p.size false) []

/-- The threads before the first one that accepts, and what that one saved. -/
def cutAccepting (p : Program) : List Thread → List Thread × Option (List (Nat × Nat))
  | [] => ([], none)
  | t :: ts =>
    match p[t.instr]? with
    | some .accept => ([], some t.saved)
    | _ =>
      let (before, found) := cutAccepting p ts
      (t :: before, found)

/-- A thread after it read a character. -/
def Thread.advance? (p : Program) (c : Char) (t : Thread) : Option Thread :=
  match p[t.instr]? with
  | some (.one s) => if s.contains c then some { t with instr := t.instr + 1 } else none
  | _ => none

/-- Reads the rest of a text. As long as nothing was found a new thread begins at every place, after
    all the others; when a thread accepts, those after it are given up. -/
def search (p : Program) (index : Nat) (before : Option Char) (ts : List Thread)
    (found : Option (List (Nat × Nat))) (rest : List Char) : Option (List (Nat × Nat)) :=
  let ts := if found.isNone then ts ++ [⟨0, []⟩] else ts
  let (live, new) := cutAccepting p (settle p ⟨index, before, rest.head?⟩ ts)
  let found := new.or found
  match rest with
  | [] => found
  | c :: r =>
    let next := live.filterMap (·.advance? p c)
    if next.isEmpty && found.isSome then found
    else search p (index + 1) (some c) next found r

/-- A regular expression ready for use, and the names of its captures in the order of their
    numbers. -/
structure Matcher where
  program : Program
  names : List String
  deriving Repr

/-- The captures of the first match in a text: for every number its name and what was captured,
    nothing when the capture had no part in the match. -/
def Matcher.captures? (m : Matcher) (text : List Char) : Option (List (String × List Char)) :=
  (search m.program 0 none [] none text).map fun saved =>
    let place (slot : Nat) : Option Nat := (saved.find? (·.1 == slot)).map (·.2)
    m.names.zipIdx.map fun (name, n) =>
      match place (2 * n), place (2 * n + 1) with
      | some a, some b => (name, (text.drop a).take (b - a))
      | _, _ => (name, [])

end MarkupLint.Pattern
