/-
  The tokens of a script: words, operators, and the texts that are announced on one line and follow
  on the next.
-/
import MarkupLint.Shell.Word

namespace MarkupLint.Shell

open Ascii

/-- A token, with the line on which it ends. -/
inductive Token where
  /-- a word, and its letters when nothing in it is quoted or expanded -/
  | word (line : Nat) (w : Word) (bare : Option Bytes)
  /-- a number right before a redirection -/
  | stream (line : Nat) (n : Nat)
  | operator (line : Nat) (s : String)
  /-- a text that was announced on the line before -/
  | body (w : Word)
  /-- the rest of the script cannot be taken apart -/
  | broken (line : Nat) (e : ScriptError)
  | ended (line : Nat)
  deriving DecidableEq, Repr

/-- The operators, the longest first. -/
def operators : List String :=
  ["<<-", "&&", "||", ";;", "<<", ">>", ">&", "<&", ">|", ";", "&", "|", "<", ">", "(", ")", "\n"]

/-- The token in front of a text that begins neither with a blank nor with a comment, and what is
    left. -/
def token (line : Nat) (s : Bytes) : Token × Bytes :=
  let linesTo (rest : Bytes) : Nat := line + (s.take (s.length - rest.length)).count 10
  match operators.find? fun o => (Bytes.ofString o).isPrefixOf s with
  | some o =>
    let rest := s.drop o.utf8ByteSize
    (.operator (linesTo rest) o, rest)
  | none =>
    match parts (s.length + 1) .none s with
    | .error e => (.broken (line + s.count 10) e, [])
    | .ok (w, rest) =>
      let bare := bare? w
      let isStream := (rest.head? = some 60 || rest.head? = some 62) &&
        (bare.map fun ds => !ds.isEmpty && ds.all isDigit).getD false
      if isStream then
        (.stream (linesTo rest) ((bare.getD []).foldl (fun n b => n * 10 + (b.toNat - 48)) 0), rest)
      else (.word (linesTo rest) w bare, rest)

/-- A text that was announced: the line that ends it, whether expansions count in it, and whether
    tabs in front of its lines are dropped. -/
structure Announced where
  mark : Bytes
  expands : Bool
  dropsTabs : Bool

/-- The letters of a word. -/
def letters (w : Word) : Bytes :=
  w.flatMap fun
    | .text s _ => s
    | _ => []

def Announced.ofWord (dropsTabs : Bool) (w : Word) : Announced :=
  ⟨letters w, (bare? w).isSome, dropsTabs⟩

/-- The lines of an announced text, and what follows it. Every line takes a byte, which bounds
    `fuel`. -/
def Announced.lines (a : Announced) : Nat → Bytes → Bytes × Bytes
  | 0, s => ([], s)
  | _, [] => ([], [])
  | fuel + 1, s =>
    let line := s.takeWhile (· != 10)
    let rest := s.drop (line.length + 1)
    let shown := if a.dropsTabs then line.dropWhile (· == 9) else line
    if shown = a.mark then ([], rest)
    else
      let (more, left) := a.lines fuel rest
      (shown ++ (if line.length < s.length then [10] else []) ++ more, left)

/-- The word of an announced text. -/
def Announced.word (a : Announced) (text : Bytes) : Except ScriptError Word :=
  if a.expands then (parts (text.length + 1) .text text).map (·.1) else .ok [.text text true]

/-- The texts that were announced, given what follows the line, and what is left. -/
def bodies : List Announced → Bytes → List Token × Bytes
  | [], s => ([], s)
  | a :: as, s =>
    let (text, rest) := a.lines (s.length + 1) s
    let t : Token := match a.word text with
      | .ok w => .body w
      | .error e => .broken 0 e
    let (ts, left) := bodies as rest
    (t :: ts, left)

/-- The tokens of a script. `announcing` tells that the last token announced a text, `announced` are
    the texts that follow the line. Every token takes a byte, which bounds `fuel`. -/
def tokens : Nat → Nat → Option Bool → List Announced → Bytes → List Token
  | 0, line, _, _, _ => [.ended line]
  | _, line, _, _, [] => [.ended line]
  | fuel + 1, line, announcing, announced, b :: r =>
    if b = 32 || b = 9 then tokens fuel line announcing announced r
    else if b = 35 then tokens fuel line announcing announced (r.dropWhile (· != 10))
    else if b = backslash && r.head? = some 10 then
      tokens fuel (line + 1) announcing announced (r.drop 1)
    else
      match token line (b :: r) with
      | (.operator l "\n", rest) =>
        let (bs, left) := bodies announced rest
        let l' := l + (rest.take (rest.length - left.length)).count 10
        .operator l "\n" :: bs ++ tokens fuel l' none [] left
      | (.operator l o, rest) =>
        let next := if o = "<<" then some false else if o = "<<-" then some true else none
        .operator l o :: tokens fuel l next announced rest
      | (.word l w bare, rest) =>
        let announced := match announcing with
          | some dropsTabs => announced ++ [.ofWord dropsTabs w]
          | none => announced
        .word l w bare :: tokens fuel l none announced rest
      | (.stream l n, rest) => .stream l n :: tokens fuel l none announced rest
      | (t, _) => [t]

/-- Puts announced texts where they were announced. `texts` are those still to be placed. -/
def place : List Word → List Token → List Token
  | _, [] => []
  | texts, .body _ :: ts => place texts ts
  | texts, .operator l o :: .word l' w bare :: ts =>
    if o = "<<" || o = "<<-" then
      .operator l "<<" :: .word l' (texts.head?.getD []) none :: place texts.tail ts
    else .operator l o :: place texts (.word l' w bare :: ts)
  | texts, t :: ts => t :: place texts ts
termination_by _ ts => ts.length

/-- The tokens of a script, with announced texts in their places. -/
def scriptTokens (s : Bytes) : List Token :=
  let ts := tokens (s.length + 1) 1 none [] s
  place (ts.filterMap fun
    | .body w => some w
    | _ => none) ts

end MarkupLint.Shell
