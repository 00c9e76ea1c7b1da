/-
  The session with a client: what the client can do, the settings for all documents, and the cache
  of the settings of single documents.

  A cached document has a slot. Slots are numbered in the order in which they are made and never
  reused, so that a slot which has left the cache can be told from a newer one of the same document.
  A slot is made empty, filled by the one who made it, and opened to the others when it is done.

  Each definition here is one step that nobody can come between.
-/
import MarkupLint.Failure
import MarkupLint.Session.Capabilities
import MarkupLint.Table

namespace MarkupLint

/-- What asking a client for the settings of a document can bring. -/
abbrev SettingsResult := Except Failure Settings

/-- The place of one document in the cache. -/
structure SettingsSlot where
  uri : String
  result : Option SettingsResult := none
  isDone : Bool := false
  deriving DecidableEq, Repr

/-- The state of a session. -/
structure Session where
  /-- the client's features, once it has announced them -/
  announced : Option Capabilities := none
  /-- the settings for all documents -/
  global : Settings := .default
  /-- all slots ever made, by their numbers -/
  slots : List SettingsSlot := []
  /-- the slots in use -/
  cache : Table Nat := []
  deriving DecidableEq, Repr

namespace Session

/-- The client's features; none until they are announced. -/
def capabilities (s : Session) : Capabilities := s.announced.getD {}

/-- Takes down the client's features. Only the first announcement counts. -/
def announce (s : Session) (c : Capabilities) : Session :=
  if s.announced.isSome then s else { s with announced := some c }

/-- The slot of a document. A document without one gets an empty one, and the flag says so. -/
def lookUp (s : Session) (uri : String) : Session × Nat × Bool :=
  match s.cache.get? uri with
  | some slot => (s, slot, false)
  | none =>
    let slot := s.slots.length
    ({ s with slots := s.slots ++ [{ uri := uri }], cache := s.cache.put uri slot }, slot, true)

/-- Puts a result into a slot. -/
def fill (s : Session) (slot : Nat) (r : SettingsResult) : Session :=
  { s with slots := s.slots.modify slot fun x => { x with result := some r } }

/-- Takes a slot out of the cache, unless its document has a newer one. -/
def discard (s : Session) (uri : String) (slot : Nat) : Session :=
  if s.cache.get? uri = some slot then { s with cache := s.cache.erase uri } else s

/-- Opens a slot to all who wait for it. -/
def complete (s : Session) (slot : Nat) : Session :=
  { s with slots := s.slots.modify slot fun x => { x with isDone := true } }

/-- The result in a slot that is open. -/
def result? (s : Session) (slot : Nat) : Option SettingsResult :=
  match s.slots[slot]? with
  | some x => if x.isDone then x.result else none
  | none => none

/-- Forgets the settings of a document that was closed. -/
def forget (s : Session) (uri : String) : Session := { s with cache := s.cache.erase uri }

/-- Takes in new settings for all documents and forgets those of single documents. A client that
    answers requests for settings cannot set them this way. -/
def reset (s : Session) (settings : Option Settings) : Session :=
  let s := { s with cache := [] }
  if s.capabilities.configuration then s else { s with global := settings.getD .default }

end Session
end MarkupLint
