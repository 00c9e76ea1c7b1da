/-
  What the server makes use of among the things that a client can do.
-/
import MarkupLint.Protocol.Workspace

namespace MarkupLint

/-- The features of a client that matter. -/
structure Capabilities where
  /-- the client answers requests for the settings of a document -/
  configuration : Bool := false
  workspaceFolders : Bool := false
  relatedInformation : Bool := false
  /-- the client watches files on behalf of the server, if it is asked to -/
  watchedFiles : Bool := false
  deriving DecidableEq, Repr

/-- The features that a client announces. -/
def Capabilities.ofClient (c : ClientCapabilities) : Capabilities :=
  let workspace := c.workspace.getD {}
  let document := c.document.getD {}
  { configuration := workspace.configuration
    workspaceFolders := workspace.workspaceFolders
    relatedInformation := (document.publishDiagnostics.getD {}).relatedInformation
    watchedFiles := (workspace.didChangeWatchedFiles.getD {}).dynamicRegistration }

end MarkupLint
