/-
  Texts as byte lists.

  A document reaches the linter as bytes, and every offset it reports counts bytes; file names and
  command output may hold bytes that are not UTF-8 at all. So the raw form of a text here is a list
  of bytes. `String` is kept for what is known to be characters: codes, messages, document names.
-/

namespace MarkupLint

/-- A text as it is stored: any bytes, UTF-8 or not. -/
abbrev Bytes := List UInt8

namespace Bytes

/-- The UTF-8 form of a string. -/
def ofString (s : String) : Bytes := s.toList.flatMap String.utf8EncodeChar

instance : Coe String Bytes := ⟨ofString⟩

/-- The newline byte, which ends a line. -/
def newline : UInt8 := 10

/-- The pieces between the occurrences of `sep`: always one more than there are separators. -/
def splitAt (sep : UInt8) : Bytes → List Bytes
  | [] => [[]]
  | b :: r =>
    if b = sep then [] :: splitAt sep r
    else match splitAt sep r with
      | [] => [[b]]
      | p :: ps => (b :: p) :: ps

/-- `rest?` is what follows `lead` in `s`, when `s` starts with it. -/
def rest? (lead : Bytes) (s : Bytes) : Option Bytes :=
  if lead.isPrefixOf s then some (s.drop lead.length) else none

/-- Every occurrence of `old`, read from the left and not overlapping, becomes `new`.
    `skip` counts the bytes of an occurrence that are still to be passed over. -/
def replaceFrom (old new : Bytes) : Nat → Bytes → Bytes
  | _, [] => []
  | n + 1, _ :: r => replaceFrom old new n r
  | 0, b :: r =>
    if old.isPrefixOf (b :: r) then new ++ replaceFrom old new (old.length - 1) r
    else b :: replaceFrom old new 0 r

/-- `s` with every occurrence of the non-empty text `old` replaced by `new`. -/
def replaceAll (s old new : Bytes) : Bytes := replaceFrom old new 0 s

/-- What stands before and behind the first `mark`. -/
def cut? (mark : Bytes) : Bytes → Option (Bytes × Bytes)
  | [] => none
  | b :: r =>
    match rest? mark (b :: r) with
    | some rest => some ([], rest)
    | none => (cut? mark r).map fun (lead, rest) => (b :: lead, rest)

/-- `s` holds `part` somewhere. -/
def holds (s part : Bytes) : Bool :=
  match s with
  | [] => part.isEmpty
  | b :: r => part.isPrefixOf (b :: r) || holds r part

example : splitAt newline (ofString "a\n\nb") = [[97], [], [98]] := by decide
example : replaceAll (ofString "abcab") (ofString "ab") (ofString "x") = ofString "xcx" := by decide

end Bytes
end MarkupLint
