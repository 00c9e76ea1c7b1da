/-
  The texts of issues. `Issue.plainText` fills the template of the issue's code. `Issue.message` is
  what a user sees: five codes have a wording of their own, else the reporter's message goes first,
  and the template comes last.
-/
import MarkupLint.Rule.Config
import MarkupLint.Rule.Issue

namespace MarkupLint

/-- A piece of a message template: fixed text, or a detail of the issue. -/
inductive MessagePart where
  | text (s : String)
  | detail (get : IssueData → String)
  | count (get : IssueData → Int)

/-- The piece filled in. -/
def MessagePart.fill (d : IssueData) : MessagePart → String
  | .text s => s
  | .detail get => get d
  | .count get => ConfigValue.integerText (get d)

/-- The template of a code. -/
def messageTemplate? : String → Option (List MessagePart)
  | "E001" => some [.text "the `", .detail (·.attr), .text "` attribute is banned"]
  | "E002" => some [.text "attribute names must match the format: ", .detail (·.format)]
  | "E003" => some [.text "duplicate attribute: ", .detail (·.attr)]
  | "E004" => some [.text "attribute values must match quoting format: ", .detail (·.format)]
  | "E005" =>
    some [.text "attribute values must not include unsafe characters: ", .detail (·.chars)]
  | "E006" => some [.text "attribute values cannot be empty"]
  | "E011" => some [.text "value must match the format: ", .detail (·.format)]
  | "E012" => some [.text "the id \"", .detail (·.value), .text "\" is already in use"]
  | "E036" => some [.text "indenting spaces must be used in groups of ", .count (·.width)]
  | "E037" =>
    some [.text "attributes for one tag on the one line should be limited to ", .count (·.limit)]
  | _ => none

namespace Issue

/-- The template of the code filled with the details. -/
def plainText (i : Issue) : String :=
  match messageTemplate? i.code with
  | some parts => String.join (parts.map (·.fill i.data))
  | none => "not a valid error code"

/-- What a user reads about the issue. -/
def message (i : Issue) : String :=
  let d := i.data
  if i.code = "E001" then "The attribute \"" ++ d.attr ++ "\" is banned"
  else if i.code = "E003" then "The attribute \"" ++ d.attr ++ "\" is duplicated"
  else if i.code = "E011" then
    "Value \"" ++ d.value ++ "\" of attribute \"" ++ d.attr ++ "\" does not respect the format '" ++
      d.format ++ "'"
  else if i.code = "E036" then
    "Wrong indentation, expected indentation of " ++ ConfigValue.integerText d.width
  else if i.code = "E037" then
    "Only " ++ ConfigValue.integerText d.limit ++ " attributes per line are permitted"
  else if i.msg ≠ "" then i.msg
  else i.plainText

end Issue
end MarkupLint
