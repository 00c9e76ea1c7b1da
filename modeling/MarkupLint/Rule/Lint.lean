/-
  The seven rules, and linting a document with them.

  The rules on attributes look at one attribute together with what came before it: the names seen in
  its tag and the ids seen in the document. The rule on attributes per line looks at a whole tag,
  the rule on indentation at the lines. All issues are put into the order of their places at the
  end; two issues at one place keep the order in which the rules found them.
-/
import MarkupLint.Markup.Outline
import MarkupLint.Rule.Issue
import MarkupLint.Rule.Options
import MarkupLint.Text.Blank
import MarkupLint.Text.LowerCase

namespace MarkupLint.Rule

open Markup

/-- Why a document could not be linted. -/
inductive LintError where
  | option (e : InvalidOption)
  | canceled

def LintError.message : LintError → String
  | .option e => e.message
  | .canceled => "context canceled"

/-- An issue at an offset of the document. -/
def issueAt (s : Source) (offset : Nat) (code rule : String) (data : IssueData) : Issue :=
  let p := s.place offset
  { code, rule, line := p.line, column := p.column, data }

/-! ## Attributes -/

/-- The value of an attribute, empty when it has none. -/
def valueOf (a : Attribute) : Bytes := a.value.getD []

/-- The name by which attributes are compared. -/
def lowerName (a : Attribute) : String := LowerCase.ofBytes a.name

/-- `E001`: the attribute is on the list of banned ones. -/
def checkBan (s : Source) (o : Options) (offset : Nat) (a : Attribute) : List Issue :=
  if (o.attrBans.getD []).contains (lowerName a) then
    [issueAt s offset "E001" "attr-bans" { attr := a.name.toText }]
  else []

/-- `E002`: the attribute's name is not of the required style. -/
def checkNameStyle (s : Source) (o : Options) (offset : Nat) (a : Attribute) : List Issue :=
  match o.attrNameStyle with
  | none => []
  | some style =>
    if style.accepts (Utf8.chars a.name) then []
    else [issueAt s offset "E002" "attr-name-style"
      { attr := a.name.toText, format := style.text }]

/-- `E003`: an earlier attribute of the tag has the same name. -/
def checkDuplicate (s : Source) (o : Options) (seen : List String) (offset : Nat) (a : Attribute) :
    List Issue :=
  if o.attrNoDup && seen.contains (lowerName a) then
    [issueAt s offset "E003" "attr-no-dup" { attr := a.name.toText }]
  else []

/-- `E011`: a word in the value of an `id` or `class` is not of the required style. -/
def checkValueStyle (s : Source) (o : Options) (offset : Nat) (a : Attribute) : List Issue :=
  match o.idClassStyle, a.value with
  | some style, some value =>
    if lowerName a == "id" || lowerName a == "class" then
      ((Blank.words (Utf8.chars value)).filter fun w => !style.accepts w).map fun w =>
        issueAt s offset "E011" "id-class-style"
          { attr := a.name.toText, value := String.ofList w, format := style.text }
    else []
  | _, _ => []

/-- The attribute gives its element an id. -/
def isId (a : Attribute) : Bool := lowerName a == "id" && !(valueOf a).isEmpty

/-- `E012`: an earlier `id` of the document has the same value. -/
def checkId (s : Source) (o : Options) (ids : List Bytes) (offset : Nat) (a : Attribute) :
    List Issue :=
  if o.idNoDup && isId a && ids.contains (valueOf a) then
    [issueAt s offset "E012" "id-no-dup" { attr := a.name.toText, value := (valueOf a).toText }]
  else []

/-- What a rule on attributes remembers: the names of the tag and the ids of the document. -/
structure Seen where
  names : List String
  ids : List Bytes

/-- What is remembered after an attribute. -/
def Seen.after (seen : Seen) (a : Attribute) : Seen :=
  ⟨lowerName a :: seen.names, if isId a then valueOf a :: seen.ids else seen.ids⟩

/-- The issues of one attribute. -/
def checkAttribute (s : Source) (o : Options) (seen : Seen) (offset : Nat) (a : Attribute) :
    List Issue :=
  checkBan s o offset a ++ checkNameStyle s o offset a ++ checkDuplicate s o seen.names offset a ++
    checkValueStyle s o offset a ++ checkId s o seen.ids offset a

/-- The issues of the attributes of a tag, and what is remembered after them. -/
def checkAttributes (s : Source) (o : Options) (t : Tag) (seen : Seen) :
    List Attribute → List Issue × Seen
  | [] => ([], seen)
  | a :: as =>
    let (rest, last) := checkAttributes s o t (seen.after a) as
    (checkAttribute s o seen (t.offsetOf a) a ++ rest, last)

/-! ## Tags -/

/-- How many attributes of the tag stand on the line on which it begins. -/
def onFirstLine (s : Source) (t : Tag) : Nat :=
  t.attributes.countP fun a => s.lineAt (t.offsetOf a) == s.lineAt t.offset

/-- `E037`: too many attributes on the line of their tag. -/
def checkNewLine (s : Source) (o : Options) (t : Tag) : List Issue :=
  if 0 < o.attrNewLine && o.attrNewLine < onFirstLine s t then
    [issueAt s t.offset "E037" "attr-new-line" { limit := o.attrNewLine }]
  else []

/-- The issues of the tags of a document; `ids` are those seen so far. -/
def checkTags (s : Source) (o : Options) (ids : List Bytes) : List Tag → List Issue
  | [] => []
  | t :: ts =>
    let (issues, seen) := checkAttributes s o t ⟨[], ids⟩ t.attributes
    issues ++ checkNewLine s o t ++ checkTags s o seen.ids ts

/-! ## Lines -/

/-- The spaces at the front of a line. -/
def indentOf (line : Bytes) : Nat := (line.takeWhile (· == 32)).length

/-- `E036`: the spaces in front of a line do not come in groups of the required width. Blank lines
    and verbatim lines are left alone. -/
def checkIndent (o : Options) (verbatim : List Nat) (number : Nat) (line : Bytes) : List Issue :=
  let spaces := indentOf line
  if verbatim.contains number || Blank.isBlankLine line || spaces % o.indentWidth == 0 then []
  else [{ code := "E036", rule := "indent-width", line := number, column := spaces,
          data := { width := o.indentWidth } }]

/-- The issues of the lines from `number` on. -/
def checkLines (o : Options) (verbatim : List Nat) (number : Nat) : List Bytes → List Issue
  | [] => []
  | l :: ls => checkIndent o verbatim number l ++ checkLines o verbatim (number + 1) ls

/-! ## Documents -/

/-- One issue does not stand behind another. -/
def notAfter (a b : Issue) : Bool :=
  if a.line = b.line then a.column ≤ b.column else a.line < b.line

/-- The issues of a document under the given options, in the order of their places. -/
def checkWith (tokens : Bytes → List Token) (o : Options) (text : Bytes) : List Issue :=
  let s := Source.ofText text
  let out := outlineWith tokens s
  let lines := if o.indentWidth = 0 then [] else checkLines o out.verbatim 0 s.lines.toList
  (lines ++ checkTags s o [] out.tags).mergeSort notAfter

/-- Lints a document that is cut into tokens in this way. A broken configuration is reported even
    when the work was already cancelled. -/
def lintWith (tokens : Bytes → List Token) (config : Config) (text : Bytes) (canceled : Bool) :
    Except LintError (List Issue) :=
  match Options.ofConfig config with
  | .error e => .error (.option e)
  | .ok o => if canceled then .error .canceled else .ok (checkWith tokens o text)

/-- Lints a document. -/
def lint (config : Config) (text : Bytes) (canceled : Bool) : Except LintError (List Issue) :=
  lintWith tokens config text canceled

end MarkupLint.Rule
