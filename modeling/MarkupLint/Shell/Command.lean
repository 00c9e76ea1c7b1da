/-
  The language that lint commands are written in: words with expansions, simple commands with
  redirections, and the usual ways of putting commands together.
-/
import MarkupLint.Text.Bytes

namespace MarkupLint.Shell

/-- How `${name…}` uses what stands behind the name. With `orEmpty` an empty value counts as a
    missing one. -/
inductive ParamUse where
  | value
  | length
  /-- `-`: a text in place of a missing value -/
  | fallback (orEmpty : Bool)
  /-- `+`: a text in place of the value -/
  | other (orEmpty : Bool)
  /-- `=`: a text in place of a missing value, which the parameter gets -/
  | assign (orEmpty : Bool)
  /-- `?`: a text to complain with about a missing value -/
  | demand (orEmpty : Bool)
  /-- `#` and `##`: without the shortest or longest match of a pattern in front -/
  | cutFront (longest : Bool)
  /-- `%` and `%%`: without the shortest or longest match of a pattern at the end -/
  | cutBack (longest : Bool)
  deriving DecidableEq, Repr

/-- A piece of a word. Quoted pieces are not split into fields, and nothing in them is a pattern.
    The text behind a parameter, the script of a substitution and the text of an expression are kept
    as written. -/
inductive Part where
  | text (s : Bytes) (quoted : Bool)
  | param (name : Bytes) (use : ParamUse) (arg : Bytes) (quoted : Bool)
  | substitution (script : Bytes) (quoted : Bool)
  | arithmetic (expression : Bytes) (quoted : Bool)
  /-- braces that hold no parameter -/
  | bad
  deriving DecidableEq, Repr

abbrev Word := List Part

/-- What a redirection does with its stream. -/
inductive RedirectKind where
  | input
  | output
  | append
  /-- the stream becomes a copy of another one -/
  | copy
  /-- the input is the text itself -/
  | here
  deriving DecidableEq, Repr

structure Redirect where
  stream : Nat
  kind : RedirectKind
  target : Word
  deriving DecidableEq, Repr

/-- A command. -/
inductive Command where
  | nothing
  | simple (line : Nat) (assignments : List (Bytes × Word)) (words : List Word)
      (redirects : List Redirect)
  /-- the output of each is the input of the next -/
  | pipe (a b : Command)
  | not (a : Command)
  | both (a b : Command)
  | either (a b : Command)
  | sequence (a b : Command)
  /-- beside the commands that follow -/
  | background (a : Command)
  /-- in a shell of its own, or in this one -/
  | group (own : Bool) (a : Command) (redirects : List Redirect)
  | choose (condition yes no : Command)
  /-- as long as the condition succeeds, or until it does -/
  | loop (untilHolds : Bool) (condition body : Command)
  | each (name : Bytes) (words : List Word) (body : Command)
  | select (subject : Word) (branches : List (List Word × Command))
  | define (name : Bytes) (body : Command)
  deriving Inhabited

end MarkupLint.Shell
