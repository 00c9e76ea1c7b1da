/-
  The flags of the command line. A flag is written `--name value` or `--name=value`; a switch needs
  no value, and may have a letter, `-x`. Flags and other arguments may come in any order, and `--`
  ends the flags.
-/
import MarkupLint.Duration
import MarkupLint.Failure
import MarkupLint.Text.CommaList
import MarkupLint.Text.Quoted

namespace MarkupLint

/-- What the flags say. -/
structure CommandFlags where
  /-- where the log goes, empty for the standard error -/
  logFile : String := ""
  logLevel : String := "warn"
  /-- the command that lints, empty for the linter of the program itself -/
  engineCommand : String := ""
  engineFormats : List String := ["json"]
  /-- the formats were given, so that further ones come after them -/
  hasFormats : Bool := false
  lintDebounce : Int := 0
  /-- how the version is written -/
  format : String := "pretty"
  showsVersion : Bool := false
  showsHelp : Bool := false
  deriving DecidableEq, Repr

/-- A flag: its name, the letter of a switch, and what a value does to the flags before it. A value
    may be refused, with words for the reason. -/
structure Flag where
  name : String
  letter : Option Char := none
  isSwitch : Bool := false
  set : CommandFlags → String → Except String CommandFlags

namespace Flag

/-- The words for yes and no. -/
def boolean? (s : String) : Option Bool :=
  if ["1", "t", "T", "TRUE", "true", "True"].contains s then some true
  else if ["0", "f", "F", "FALSE", "false", "False"].contains s then some false
  else none

/-- A flag with a text for its value. -/
def text (name : String) (set : CommandFlags → String → CommandFlags) : Flag :=
  { name := name, set := fun o v => .ok (set o v) }

/-- A flag that is on or off. -/
def switch (name : String) (letter : Char) (set : CommandFlags → Bool → CommandFlags) : Flag where
  name := name
  letter := some letter
  isSwitch := true
  set o v :=
    match boolean? v with
    | some b => .ok (set o b)
    | none => .error ("strconv.ParseBool: parsing " ++ Quoted.ofString v ++ ": invalid syntax")

def logFile : Flag := text "log-file" fun o v => { o with logFile := v }

def logLevel : Flag := text "log-level" fun o v => { o with logLevel := v }

def engineCommand : Flag := text "engine-command" fun o v => { o with engineCommand := v }

/-- The formats come as comma lists. The first one takes the place of the default, further ones add
    to it. -/
def engineFormat : Flag where
  name := "engine-format"
  set o v :=
    match CommaList.ofBytes (Bytes.ofString v) with
    | .error e => .error e.message
    | .ok fs =>
      let fs := fs.map Bytes.toText
      .ok { o with engineFormats := if o.hasFormats then o.engineFormats ++ fs else fs,
                   hasFormats := true }

def lintDebounce : Flag where
  name := "lint-debounce"
  set o v :=
    match Duration.ofBytes (Bytes.ofString v) with
    | .error e => .error (e.message (Bytes.ofString v))
    | .ok n => .ok { o with lintDebounce := n }

def format : Flag := text "format" fun o v => { o with format := v }

def version : Flag := switch "version" 'v' fun o b => { o with showsVersion := b }

def help : Flag := switch "help" 'h' fun o b => { o with showsHelp := b }

/-- The flag in words. -/
def title (f : Flag) : String :=
  match f.letter with
  | some c => "-" ++ String.singleton c ++ ", --" ++ f.name
  | none => "--" ++ f.name

/-- Gives a flag a value. -/
def assign (f : Flag) (o : CommandFlags) (v : String) : Except Failure CommandFlags :=
  (f.set o v).mapError fun reason =>
    .plain ("invalid argument " ++ Quoted.ofString v ++ " for " ++ Quoted.ofString f.title ++
      " flag: " ++ reason)

end Flag

namespace CommandFlags

/-! ## Long flags -/

/-- A text up to the first `=`, and what comes after it if there is one. -/
def splitValue (s : List Char) : String × Option String :=
  (String.ofList (s.takeWhile (· != '=')),
    match s.dropWhile (· != '=') with
    | [] => none
    | _ :: v => some (String.ofList v))

/-- Reads a flag with a name, given without the dashes. The result says whether the next argument
    was its value. -/
def readLong (flags : List Flag) (o : CommandFlags) (body : List Char) (next : Option String) :
    Except Failure (CommandFlags × Bool) :=
  match body with
  | [] | '-' :: _ | '=' :: _ => .error (.plain ("bad flag syntax: --" ++ String.ofList body))
  | body =>
    let (name, value) := splitValue body
    match flags.find? (·.name == name), value with
    | none, _ => .error (.plain ("unknown flag: --" ++ name))
    | some f, some v => (f.assign o v).map (·, false)
    | some f, none =>
      if f.isSwitch then (f.assign o "true").map (·, false)
      else
        match next with
        | some v => (f.assign o v).map (·, true)
        | none => .error (.plain ("flag needs an argument: --" ++ name))

/-! ## Letters -/

/-- A character between apostrophes. -/
def quotedChar (c : Char) : String :=
  let inner := if c = '\x27' then ['\\', c] else if c = '"' then [c] else Quoted.escape c
  "\x27" ++ String.ofList inner ++ "\x27"

/-- Arguments of test runs, which are passed over. -/
def testArgument : Bytes := Bytes.ofString "test."

/-- Reads switches by their letters, given without the dash. Each byte counts as a letter. -/
def readLetters (flags : List Flag) (o : CommandFlags) : Bytes → Except Failure CommandFlags
  | [] => .ok o
  | b :: r =>
    if testArgument.isPrefixOf (b :: r) then .ok o
    else
      let c := Char.ofNat b.toNat
      match flags.find? (·.letter == some c) with
      | none =>
        .error (.plain ("unknown shorthand flag: " ++ quotedChar c ++ " in -" ++
          Bytes.toText (b :: r)))
      | some f =>
        match r with
        | 61 :: v :: vs => f.assign o (Bytes.toText (v :: vs))
        | r =>
          match f.assign o "true" with
          | .error e => .error e
          | .ok o => readLetters flags o r

/-! ## All arguments -/

/-- Reads the arguments: what the flags say, and the arguments that are no flags. -/
def read (flags : List Flag) (o : CommandFlags) (found : List String) :
    List String → Except Failure (CommandFlags × List String)
  | [] => .ok (o, found)
  | s :: rest =>
    match s.toList with
    | ['-', '-'] => .ok (o, found ++ rest)
    | '-' :: '-' :: body =>
      match readLong flags o body rest.head? with
      | .error e => .error e
      | .ok (o, false) => read flags o found rest
      | .ok (o, true) => read flags o found rest.tail
    | '-' :: c :: cs =>
      match readLetters flags o (Bytes.ofString (String.ofList (c :: cs))) with
      | .error e => .error e
      | .ok o => read flags o found rest
    | _ => read flags o (found ++ [s]) rest
termination_by args => args.length
decreasing_by all_goals (simp_wf; try omega)

end CommandFlags
end MarkupLint
