/-
  What can go wrong while the server works, as a chain of causes, and the words for it.
-/
import MarkupLint.FileSystem
import MarkupLint.Json.Codec
import MarkupLint.Path.Uri
import MarkupLint.Rule.Lint
import MarkupLint.Text.Utf8

namespace MarkupLint

/-- Results can be told apart when their values and their errors can. -/
instance decidableResult [DecidableEq ε] [DecidableEq α] : DecidableEq (Except ε α)
  | .ok a, .ok b => if h : a = b then isTrue (h ▸ rfl) else isFalse fun e => h (Except.ok.inj e)
  | .error a, .error b =>
    if h : a = b then isTrue (h ▸ rfl) else isFalse fun e => h (Except.error.inj e)
  | .ok _, .error _ => isFalse nofun
  | .error _, .ok _ => isFalse nofun

/-- A failure, with the failures that led to it inside. -/
inductive Failure where
  /-- a configuration file that cannot be used -/
  | badConfig (path : Bytes) (cause : Failure)
  /-- the linter gave up on a document -/
  | engine (uri : String) (cause : Failure)
  /-- the connection to the client broke, during a request or between requests -/
  | connection (during : String) (cause : Failure)
  /-- an error answer over the connection -/
  | answer (code : Int) (message : String)
  /-- files were linted, and problems were found in them -/
  | problems (count : Nat)
  | json (e : ReadError)
  | badUri
  | canceled
  /-- there was no more time for what was asked -/
  | expired
  | file (path : Bytes) (e : FileError)
  /-- a command could not be started, because its directory is missing -/
  | noDirectory
  /-- reading a linter's output came to a state from which there is no way on -/
  | broken
  /-- a failure with a remark in front -/
  | remark (text : String) (cause : Failure)
  | plain (text : String)
  deriving DecidableEq, Repr

namespace FileError

/-- What is wrong with a path. -/
def reason : FileError → String
  | .missing => "no such file or directory"
  | .notDirectory => "not a directory"
  | .isDirectory => "is a directory"
  | .nameTooLong => "file name too long"
  | .invalid => "invalid argument"

/-- The words of a failed file access: opening a directory succeeds, reading it fails. -/
def message (e : FileError) (path : Bytes) : String :=
  (if e = .isDirectory then "read " else "open ") ++ path.toText ++ ": " ++ e.reason

end FileError

namespace ReadError

def message : ReadError → String
  | .malformed => "the text is not well-formed JSON"
  | .mismatch => "a JSON value is not of the expected type"

end ReadError

namespace Failure

def message : Failure → String
  | .badConfig path cause => "malformed configuration " ++ path.toText ++ ": " ++ cause.message
  | .engine uri cause => "lint failed for " ++ uri ++ ": " ++ cause.message
  | .connection during cause =>
    if during = "" then "connection to client lost: " ++ cause.message
    else "connection to client lost during " ++ during ++ ": " ++ cause.message
  | .answer code text => "jsonrpc2: code " ++ ConfigValue.integerText code ++ " message: " ++ text
  | .problems count => ConfigValue.integerText count ++ " problems found"
  | .json e => e.message
  | .badUri => "the text is not a well-formed URI"
  | .canceled => "context canceled"
  | .expired => "context deadline exceeded"
  | .file path e => e.message path
  | .noDirectory => "the directory to run in does not exist"
  | .broken => "the output of the linter cannot be read"
  | .remark text cause => text ++ ": " ++ cause.message
  | .plain text => text

/-- What went wrong inside a failure, if it names a cause. -/
def cause? : Failure → Option Failure
  | .badConfig _ c | .engine _ c | .connection _ c | .remark _ c => some c
  | _ => none

/-- The failure comes down to a cancellation, by somebody or by the clock. -/
def isCancellation : Failure → Bool
  | .canceled | .expired => true
  | .badConfig _ c | .engine _ c | .connection _ c | .remark _ c => c.isCancellation
  | _ => false

/-- The configuration file that a failure comes from, and what is wrong with it. -/
def badConfig? : Failure → Option (Bytes × Failure)
  | .badConfig path c => some (path, c)
  | .engine _ c | .connection _ c | .remark _ c => c.badConfig?
  | _ => none

/-- The failure of a URI that names no file. -/
def ofUriError : Uri.UriError → Failure
  | .malformed => .badUri
  | .scheme name => .plain ("only file URIs are supported, got " ++ name)

/-- The failure to find the file of a document, which quotes the URI. -/
def noFile (uri : Bytes) (e : Uri.UriError) : Failure :=
  .plain ("invalid uri: " ++ (ofUriError e).message ++ ": " ++ uri.toText)

/-- The failure of a linting. -/
def ofLintError : Rule.LintError → Failure
  | .option e => .plain e.message
  | .canceled => .canceled

end Failure
end MarkupLint
