/-
  What the server does about each message of the client.
-/
import MarkupLint.Protocol.Document
import MarkupLint.Server.State

namespace MarkupLint

/-- What comes of a message: the server after it, what is let out, what is left to do, and the
    answer, in case the message is a request. -/
structure Handled where
  server : Server
  output : List ServerOutput := []
  tasks : List ServerTask := []
  answer : Except Failure Json := .ok .null

namespace Handled

/-- A message that cannot be handled changes nothing. -/
def failed (s : Server) (f : Failure) : Handled := { server := s, answer := .error f }

/-- A message that sets something off. -/
def ofReaction (r : Reaction) : Handled := { server := r.1, output := r.2 }

end Handled

namespace Server

/-- A message lacks its parameters. -/
def noParams : Failure := .answer (-32602) ""

/-- Nothing is known of a method. -/
def unknownMethod (method : String) : Failure :=
  .answer (-32601) ("method not supported: " ++ method)

/-- Handles a message by its parameters. -/
def withParams (s : Server) (c : Codec α) (params : Option Json) (f : α → Handled) : Handled :=
  match params with
  | none => .failed s noParams
  | some j =>
    match c.readOne j with
    | .ok a => f a
    | .error e => .failed s (.json e)

/-! ## Starting and ending -/

/-- The client introduces itself. A root that cannot be used is refused, but the delay stays. -/
def onInitialize (s : Server) (p : InitializeParams) : Handled :=
  let s := s.setDebounce ((p.options.map (·.lintDebounce)).getD 0)
  let s := { s with workspace := { s.workspace with fetches := true } }
  match s.workspace.startUp p with
  | .ok w => { server := { s with workspace := w }, answer := .ok initializeAnswer }
  | .error f => .failed s f

/-- The files to watch, as patterns. -/
def watchedPatterns : List String := ["**/.htmllintrc", "**/package.json"]

/-- What the server wants to be told of, as far as the client is able to. -/
def registrations (c : Capabilities) : List Json :=
  let one (method : String) (options : List (String × Json)) : Json :=
    .obj ([("id", .str method), ("method", .str method)] ++ options)
  (if c.configuration then [one "workspace/didChangeConfiguration" []] else []) ++
  (if c.watchedFiles then
    [one "workspace/didChangeWatchedFiles" [("registerOptions",
      .obj [("watchers", .arr (watchedPatterns.map fun g => .obj [("globPattern", .str g)]))])]]
  else [])

/-- The request for registrations. A server that is closed does not wait for the answer. -/
def register (s : Server) (rs : List Json) : Reaction :=
  if rs.isEmpty then (s, [])
  else
    ({ s with requestCount := s.requestCount + 1 },
      s.post (.request s.requestCount "client/registerCapability"
        (.obj [("registrations", .arr rs)])) ++
      (if s.isClosed then
        [.log ⟨.warn, "capability registration failed: " ++ Failure.canceled.message⟩]
      else []))

/-- The client is ready. The server watches files itself if the client does not. -/
def onInitialized (fs : FileSystem) (s : Server) : Handled :=
  let c := s.workspace.session.capabilities
  let root := s.workspace.root
  let s := if c.watchedFiles || root.isEmpty then s
    else { s with watcher := some (.ofRoot fs root) }
  .ofReaction (s.register (registrations c))

/-- The client wants the server to stop working. -/
def onShutdown (s : Server) : Handled :=
  { server := s, tasks := [.noteShutdown, .stopTimers, .cancelWork] }

/-- The client wants the server to go. -/
def onExit (s : Server) : Handled :=
  { server := s, tasks := [.stopTimers, .cancelWork, .disconnect] }

/-! ## Documents -/

def onOpen (s : Server) (p : DidOpen) : Handled :=
  let d := p.document
  { server := s
    tasks := [.openDocument d.uri d.languageId d.version (Bytes.ofString d.text),
      .schedule d.uri .opened] }

/-- Gives a document a new text and lints it. Tables of documents change by messages only, so a
    document that is open now is open when its turn comes. -/
def update (s : Server) (uri text : String) (version : Option Int) (trigger : Trigger) : Handled :=
  match s.workspace.documents.get? uri with
  | none => .failed s (.notOpen uri)
  | some _ =>
    { server := s
      tasks := [.changeDocument uri (Bytes.ofString text) version, .schedule uri trigger] }

/-- Changes come as whole texts, so the last one counts. -/
def onChange (s : Server) (p : DidChange) : Handled :=
  match (p.changes.getD []).getLast? with
  | none => { server := s }
  | some c => s.update p.document.uri c.text (some p.document.version) .changed

/-- A saved document may come with its text. -/
def onSave (s : Server) (p : DidSave) : Handled :=
  match p.text with
  | some text => s.update p.document.uri text none .saved
  | none => { server := s, tasks := [.schedule p.document.uri .saved] }

def onClose (s : Server) (p : DidClose) : Handled :=
  let uri := p.document.uri
  { server := s, tasks := [.cancelLinting uri, .dropDocument uri, .forgetSettings uri] }

/-- Completion items come back as they are. -/
def onResolve (s : Server) (item : CompletionItem) : Handled :=
  { server := s, answer := .ok (CompletionItem.codec.write item) }

/-! ## The workspace -/

/-- The tasks that set the timers of all open documents. -/
def revalidation (s : Server) (trigger : Trigger) : List ServerTask :=
  s.workspace.documents.uris.map (.schedule · trigger)

def onConfiguration (s : Server) (p : DidChangeConfiguration) : Handled :=
  { server := s
    tasks := [.setDebounce p.config.lintDebounce, .configure p.config] ++
      s.revalidation .settingsChanged }

/-- The change of a file matters if the last part of its URI is the name of a configuration file. -/
def concernsConfig (e : FileEvent) : Bool := affectsConfig (Path.base (Bytes.ofString e.uri))

def onFiles (s : Server) (p : DidChangeFiles) : Handled :=
  if (p.changes.getD []).any concernsConfig then
    { server := s
      output := s.logMessage 4 "configuration file change event received"
      tasks := s.revalidation .configChanged }
  else { server := s }

def onFolders (s : Server) (p : DidChangeFolders) : Handled :=
  let count (fs : Option (List WorkspaceFolder)) : String :=
    ConfigValue.integerText (fs.getD []).length
  let text := "workspace folder change event received: " ++ count p.event.added ++ " added, " ++
    count p.event.removed ++ " removed"
  { server := s, output := .log ⟨.info, text⟩ :: s.logMessage 4 text }

/-! ## All methods -/

/-- Handles a message. An unknown notification is passed over. -/
def handle (fs : FileSystem) (s : Server) (method : String) (params : Option Json)
    (isRequest : Bool) : Handled :=
  match method with
  | "initialize" => s.withParams InitializeParams.codec params s.onInitialize
  | "initialized" => s.onInitialized fs
  | "shutdown" => s.onShutdown
  | "exit" => s.onExit
  | "textDocument/didOpen" => s.withParams DidOpen.codec params s.onOpen
  | "textDocument/didChange" => s.withParams DidChange.codec params s.onChange
  | "textDocument/didSave" => s.withParams DidSave.codec params s.onSave
  | "textDocument/didClose" => s.withParams DidClose.codec params s.onClose
  | "textDocument/completion" => { server := s, answer := .ok (.arr []) }
  | "completionItem/resolve" => s.withParams CompletionItem.codec params s.onResolve
  | "workspace/didChangeConfiguration" =>
    s.withParams DidChangeConfiguration.codec params s.onConfiguration
  | "workspace/didChangeWatchedFiles" => s.withParams DidChangeFiles.codec params s.onFiles
  | "workspace/didChangeWorkspaceFolders" => s.withParams DidChangeFolders.codec params s.onFolders
  | _ => if isRequest then .failed s (unknownMethod method) else { server := s }

end Server
end MarkupLint
