/-
  Between file paths and `file` URIs. A URI is taken apart as a request target is: scheme,
  authority, path and query; a fragment mark is an ordinary character. Only the path matters in the
  end, but a malformed part anywhere makes the whole URI malformed.
-/
import MarkupLint.Path.Address

namespace MarkupLint.Uri

open Ascii

/-- Why a URI names no file. -/
inductive UriError where
  | malformed
  /-- the scheme is not `file` -/
  | scheme (name : String)
  deriving DecidableEq, Repr

def percent : UInt8 := 37
def colon : UInt8 := 58

/-! ## Percent encoding -/

def hexValue? (b : UInt8) : Option UInt8 :=
  if isDigit b then some (b - 48)
  else if 97 ≤ b && b ≤ 102 then some (b - 87)
  else if 65 ≤ b && b ≤ 70 then some (b - 55)
  else none

/-- The text with its percent escapes decoded; `none` when one is malformed. -/
def decode? : Bytes → Option Bytes
  | [] => some []
  | b :: r =>
    if b = percent then
      match r with
      | h :: l :: r' =>
        match hexValue? h, hexValue? l, decode? r' with
        | some h, some l, some t => some ((h * 16 + l) :: t)
        | _, _, _ => none
      | _ => none
    else (decode? r).map (b :: ·)

/-- An upper-case hexadecimal digit. -/
def hexDigit (n : UInt8) : UInt8 := if n < 10 then n + 48 else n + 55

/-- A byte that stands for itself in the path of a URI. -/
def isPlain (b : UInt8) : Bool :=
  isLetter b || isDigit b || (Bytes.ofString "-_.~$&+,/:;=@").contains b

/-- The text with all other bytes written as percent escapes. -/
def encode (p : Bytes) : Bytes :=
  p.flatMap fun b => if isPlain b then [b] else [percent, hexDigit (b / 16), hexDigit (b % 16)]

/-! ## Authorities -/

/-- `rest` is the text behind the last `b`, and `lead` what stands before it. -/
def cutLast? (b : UInt8) (s : Bytes) : Option (Bytes × Bytes) :=
  let rest := (s.reverse.takeWhile (· != b)).reverse
  if rest.length < s.length then some (s.take (s.length - rest.length - 1), rest) else none

/-- Nothing, or a colon and digits. -/
def isPort : Bytes → Bool
  | [] => true
  | b :: r => b = colon && r.all isDigit

/-- A byte that may stand in a host name as it is. -/
def isHostByte (b : UInt8) : Bool :=
  128 ≤ b || isLetter b || isDigit b || (Bytes.ofString "-_.~!$&'()*+,;=:[]<>\"").contains b

/-- A host name: plain bytes, and escapes of bytes beyond ASCII or of the percent sign. -/
def isHostText : Bytes → Bool
  | [] => true
  | b :: r =>
    if b = percent then
      match r with
      | h :: l :: r' =>
        match hexValue? h, hexValue? l with
        | some x, some _ => (8 ≤ x || (h = 50 && l = 53)) && isHostText r'
        | _, _ => false
      | _ => false
    else isHostByte b && isHostText r

/-- What stands behind the address of a host to name its zone: plain bytes, and escapes of these, of
    the space and of the percent sign. -/
def isZoneText : Bytes → Bool
  | [] => true
  | b :: r =>
    if b = percent then
      match r with
      | h :: l :: r' =>
        match hexValue? h, hexValue? l with
        | some x, some y =>
          let c := x * 16 + y
          (c = percent || c = 32 || (c < 128 && isHostByte c)) && isZoneText r'
        | _, _ => false
      | _ => false
    else isHostByte b && isZoneText r

/-- A host that is given by its address, without the brackets. An escaped percent sign begins the
    zone. -/
def isHostAddress (s : Bytes) : Bool :=
  (match Bytes.cut? (Bytes.ofString "%25") s with
    | none => isHostText s
    | some (address, zone) => isHostText address && isZoneText zone) &&
  ((decode? s).map Address.isAddress).getD false

/-- A host, with or without a colon and digits behind it. An opening bracket stands in front or
    nowhere; it makes what follows up to the last closing bracket an address. -/
def isHost (h : Bytes) : Bool :=
  match h with
  | 91 :: r =>
    match cutLast? 93 r with
    | none => false
    | some (address, tail) => !r.contains 91 && isHostAddress address && isPort tail
  | h =>
    match cutLast? colon h with
    | none => !h.contains 91 && isHostText h
    | some (_, tail) => !h.contains 91 && isHostText h && tail.all isDigit

/-- A byte of a user name and password. -/
def isUserByte (b : UInt8) : Bool :=
  isLetter b || isDigit b || (Bytes.ofString "-._:~!$&'()*+,;=%@").contains b

/-- What stands between `//` and the path. -/
def isAuthority (s : Bytes) : Bool :=
  match cutLast? 64 s with
  | none => isHost s
  | some (user, host) => isHost host && user.all isUserByte && (decode? user).isSome

/-! ## Parts of a URI -/

/-- A byte of a scheme after its first letter. -/
def isSchemeByte (b : UInt8) : Bool :=
  isLetter b || isDigit b || b = 43 || b = 45 || b = 46

/-- The scheme, in lower case, and what follows its colon. Without a scheme the first part is empty;
    `none` when the text begins with a colon. -/
def scheme? (s : Bytes) : Option (Bytes × Bytes) :=
  match s with
  | [] => some ([], s)
  | b :: _ =>
    if b = colon then none
    else if !isLetter b then some ([], s)
    else
      let name := s.takeWhile isSchemeByte
      match s.drop name.length with
      | c :: r => if c = colon then some (lowerAll name, r) else some ([], s)
      | [] => some ([], s)

/-- A control byte, which no URI may hold. -/
def isControl (b : UInt8) : Bool := b < 32 || b = 127

/-- The scheme and the decoded path of a URI; `none` when it is malformed. A URI without a slash
    behind its scheme has an empty path. -/
def split? (s : Bytes) : Option (Bytes × Bytes) :=
  if s.isEmpty || s.any isControl then none
  else if s = [42] then some ([], s)
  else
    match scheme? s with
    | none => none
    | some (scheme, rest) =>
      let rest := rest.takeWhile (· != question)
      match rest with
      | a :: r =>
        if a ≠ slash then if scheme.isEmpty then none else some (scheme, [])
        else if !scheme.isEmpty && r.head? = some slash then
          let after := r.drop 1
          let authority := after.takeWhile (· != slash)
          if isAuthority authority then
            (decode? (after.drop authority.length)).map fun p => (scheme, p)
          else none
        else (decode? rest).map fun p => (scheme, p)
      | [] => if scheme.isEmpty then none else some (scheme, [])

/-! ## Files -/

/-- A path that begins with a letter and a colon. -/
def hasDrive (p : Bytes) : Bool :=
  match p with
  | a :: b :: _ => isLetter a && b = colon
  | _ => false

/-- The path of a file that its URI gives with a drive in front: without the slash before the drive
    letter, and with that letter in upper case. -/
def dropDriveSlash (p : Bytes) : Bytes :=
  match p with
  | a :: b :: r => if 4 ≤ p.length && a = slash && hasDrive (b :: r) then upper b :: r else p
  | _ => p

/-- The path of the file that a URI names. -/
def path (uri : Bytes) : Except UriError Bytes :=
  match split? uri with
  | none => .error .malformed
  | some (scheme, p) =>
    if scheme = Bytes.ofString "file" then .ok (dropDriveSlash p)
    else .error (.scheme (String.ofList (scheme.map fun b => Char.ofNat b.toNat)))

/-- The URI of a file. -/
def ofPath (p : Bytes) : Bytes :=
  let p := if hasDrive p then slash :: p else p
  if p.isEmpty then Bytes.ofString "file:"
  else Bytes.ofString "file://" ++ (if p = [42] then p else encode p)

example : ofPath (Bytes.ofString "/a b") = Bytes.ofString "file:///a%20b" := by decide +kernel
example : (path (Bytes.ofString "file:///a%20b")).toOption = some (Bytes.ofString "/a b") := by
  decide +kernel

end MarkupLint.Uri
