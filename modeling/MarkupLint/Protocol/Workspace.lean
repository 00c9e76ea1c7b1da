/-
  Messages about the workspace: starting up, what the two sides can do, changes of settings, files
  and folders.
-/
import MarkupLint.Settings

namespace MarkupLint

open Codec

/-! ## What a client can do -/

structure DynamicRegistration where
  dynamicRegistration : Bool := false
  deriving DecidableEq, Repr

structure WorkspaceCapabilities where
  configuration : Bool := false
  workspaceFolders : Bool := false
  didChangeConfiguration : Option DynamicRegistration := none
  didChangeWatchedFiles : Option DynamicRegistration := none
  deriving DecidableEq, Repr

structure PublishCapabilities where
  relatedInformation : Bool := false
  deriving DecidableEq, Repr

structure DocumentCapabilities where
  publishDiagnostics : Option PublishCapabilities := none
  deriving DecidableEq, Repr

structure ClientCapabilities where
  workspace : Option WorkspaceCapabilities := none
  document : Option DocumentCapabilities := none
  deriving DecidableEq, Repr

def DynamicRegistration.codec : Codec DynamicRegistration :=
  record {} [
    .whenSet "dynamicRegistration" flag (·.dynamicRegistration)
      fun d x => { d with dynamicRegistration := x }]

def WorkspaceCapabilities.codec : Codec WorkspaceCapabilities :=
  record {} [
    .whenSet "configuration" flag (·.configuration) fun w x => { w with configuration := x },
    .whenSet "workspaceFolders" flag (·.workspaceFolders) fun w x =>
      { w with workspaceFolders := x },
    .whenSet "didChangeConfiguration" (nullable DynamicRegistration.codec)
      (·.didChangeConfiguration)
      fun w x => { w with didChangeConfiguration := x },
    .whenSet "didChangeWatchedFiles" (nullable DynamicRegistration.codec) (·.didChangeWatchedFiles)
      fun w x => { w with didChangeWatchedFiles := x }]

def PublishCapabilities.codec : Codec PublishCapabilities :=
  record {} [
    .whenSet "relatedInformation" flag (·.relatedInformation)
      fun p x => { p with relatedInformation := x }]

def DocumentCapabilities.codec : Codec DocumentCapabilities :=
  record {} [
    .whenSet "publishDiagnostics" (nullable PublishCapabilities.codec) (·.publishDiagnostics)
      fun d x => { d with publishDiagnostics := x }]

def ClientCapabilities.codec : Codec ClientCapabilities :=
  record {} [
    .whenSet "workspace" (nullable WorkspaceCapabilities.codec) (·.workspace)
      fun c x => { c with workspace := x },
    .whenSet "textDocument" (nullable DocumentCapabilities.codec) (·.document)
      fun c x => { c with document := x }]

/-! ## Starting up -/

structure WorkspaceFolder where
  uri : String := ""
  name : String := ""
  deriving DecidableEq, Repr

structure InitializeParams where
  rootUri : String := ""
  workspaceFolders : Option (List WorkspaceFolder) := none
  options : Option ClientConfig := none
  capabilities : ClientCapabilities := {}
  deriving DecidableEq, Repr

def WorkspaceFolder.codec : Codec WorkspaceFolder :=
  record {} [
    .always "uri" string (·.uri) fun w x => { w with uri := x },
    .always "name" string (·.name) fun w x => { w with name := x }]

def InitializeParams.codec : Codec InitializeParams :=
  record {} [
    .whenSet "rootUri" string (·.rootUri) fun p x => { p with rootUri := x },
    .whenSet "workspaceFolders" (list WorkspaceFolder.codec) (·.workspaceFolders)
      fun p x => { p with workspaceFolders := x },
    .whenSet "initializationOptions" (nullable ClientConfig.codec) (·.options)
      fun p x => { p with options := x },
    .always "capabilities" ClientCapabilities.codec (·.capabilities)
      fun p x => { p with capabilities := x }]

/-- What the server answers when it is started: columns count UTF-16 units, documents are sent
    whole, completion items can be resolved, and changes of workspace folders are welcome. -/
def initializeAnswer : Json :=
  .obj [("capabilities", .obj [
    ("positionEncoding", .str "utf-16"),
    ("textDocumentSync",
      .obj [("openClose", .bool true), ("change", .int 1), ("save", .bool true)]),
    ("completionProvider", .obj [("resolveProvider", .bool true)]),
    ("workspace", .obj [("workspaceFolders",
      .obj [("supported", .bool true), ("changeNotifications", .bool true)])])])]

/-! ## Changes -/

structure DidChangeConfiguration where
  config : ClientConfig := {}
  deriving DecidableEq, Repr

structure FileEvent where
  uri : String := ""
  type : Int := 0
  deriving DecidableEq, Repr

structure DidChangeFiles where
  changes : Option (List FileEvent) := none
  deriving DecidableEq, Repr

structure FoldersChange where
  added : Option (List WorkspaceFolder) := none
  removed : Option (List WorkspaceFolder) := none
  deriving DecidableEq, Repr

structure DidChangeFolders where
  event : FoldersChange := {}
  deriving DecidableEq, Repr

def DidChangeConfiguration.codec : Codec DidChangeConfiguration :=
  record {} [
    .always "settings" ClientConfig.codec (·.config) fun d x => { d with config := x }]

def FileEvent.codec : Codec FileEvent :=
  record {} [
    .always "uri" string (·.uri) fun e x => { e with uri := x },
    .always "type" integer (·.type) fun e x => { e with type := x }]

def DidChangeFiles.codec : Codec DidChangeFiles :=
  record {} [
    .always "changes" (list FileEvent.codec) (·.changes) fun d x => { d with changes := x }]

def FoldersChange.codec : Codec FoldersChange :=
  record {} [
    .always "added" (list WorkspaceFolder.codec) (·.added) fun e x => { e with added := x },
    .always "removed" (list WorkspaceFolder.codec) (·.removed) fun e x => { e with removed := x }]

def DidChangeFolders.codec : Codec DidChangeFolders :=
  record {} [
    .always "event" FoldersChange.codec (·.event) fun d x => { d with event := x }]

end MarkupLint
