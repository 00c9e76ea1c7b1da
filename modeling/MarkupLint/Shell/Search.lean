/-
  Searching lines for regular expressions.
-/
import MarkupLint.Shell.Expression
import MarkupLint.Shell.Lines

namespace MarkupLint.Shell

/-- What lines are searched for. -/
structure Search where
  matchers : List Pattern.Matcher
  /-- a match has to be a word -/
  words : Bool
  /-- a match has to be the whole line -/
  wholeLine : Bool
  /-- the lines without a match are the ones that count -/
  inverted : Bool

namespace Search

/-- A match that counts. -/
def allows (s : Search) (text : List Char) (hit : Expression.Span) : Bool :=
  let isPart (n : Nat) : Bool := (text[n]?.map fun c => c.isAlphanum || c == '_').getD false
  (!s.wholeLine || hit = (0, text.length)) &&
    (!s.words || !((0 < hit.1 && isPart (hit.1 - 1)) || isPart hit.2))

/-- The matches in a line. -/
def hits (s : Search) (line : Bytes) : List Expression.Span :=
  let cs := Expression.latin line
  ((s.matchers.flatMap fun m => (Expression.findAll m cs (cs.length + 2) 0 none).map (·.1)).filter
    (s.allows cs)).mergeSort fun a b => a.1 ≤ b.1

def selects (s : Search) (line : Bytes) : Bool := (s.hits line).isEmpty = s.inverted

end Search

/-- The options that are not known. -/
def searchUsage (st : State) : State :=
  State.withStatus (st.write 2 (Bytes.ofString
    "Usage: grep [OPTION]... PATTERNS [FILE]...\nTry 'grep --help' for more information.\n")) 2

/-- The text of an expression without its operators. -/
def fixedText (s : Bytes) : Bytes :=
  s.flatMap fun b => if (Bytes.ofString "\\.[]*^$").contains b then [backslash, b] else [b]

/-- Prints the lines in which there is a match. -/
def grep (st : State) (args : List Bytes) : State :=
  match Options.readFrom (Bytes.ofString "EFGchHilnoqsvwx") (Bytes.ofString "e") args with
  | .error _ => searchUsage st
  | .ok o =>
    let given := (o.given.filter fun g => g.1 == 101).map fun g => g.2
    match if given.isEmpty then o.operands.head?.map fun p => [p] else some given with
    | none => searchUsage st
    | some patterns =>
      let files := if given.isEmpty then o.operands.drop 1 else o.operands
      let patterns := patterns.flatMap (Bytes.splitAt 10)
      match patterns.mapM fun p =>
          Expression.matcher? (o.has 'E') (o.has 'i') (if o.has 'F' then fixedText p else p) with
      | none => (st.remark "grep" (Bytes.ofString "Invalid regular expression")).withStatus 2
      | some ms =>
        let search : Search := ⟨ms, o.has 'w', o.has 'x', o.has 'v'⟩
        let (st, ts) := st.texts "grep" cannotRead files
        let failed := st.status ≠ 0
        let named := (1 < files.length || o.has 'H') && !o.has 'h'
        let (st, any) := ts.foldl (fun (st, any) (p, s) =>
          let lines := ((linesOf s).map bareLine).zipIdx.filter fun l => search.selects l.1
          let any := any || !lines.isEmpty
          let name := if p = [Ascii.dash] then Bytes.ofString "(standard input)" else p
          let lead (n : Nat) : Bytes := (if named then name ++ [58] else []) ++
            (if o.has 'n' then Bytes.ofString (toString (n + 1)) ++ [58] else [])
          let st := if o.has 'q' then st
            else if o.has 'c' then
              st.print
                ((if named then name ++ [58] else []) ++ Bytes.ofString (toString lines.length))
            else if o.has 'l' then if lines.isEmpty then st else st.print name
            else if o.has 'o' then
              st.printLines (lines.flatMap fun (l, n) => (search.hits l).filterMap fun (a, b) =>
                if a = b then none else some (lead n ++ (l.drop a).take (b - a)))
            else st.printLines (lines.map fun (l, n) => lead n ++ l)
          (st, any)) (st, false)
        st.withStatus (if failed && !(any && o.has 'q') then 2 else if any then 0 else 1)

end MarkupLint.Shell
