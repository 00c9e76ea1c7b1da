/-
  Asking for the settings of a document, by many at a time.

  A call looks its document up. If there is no slot, the call makes one, asks the client, fills the
  slot, takes it out of the cache again when the answer was a failure, and opens it. If there is a
  slot, the call waits until it is open. Whoever waits takes the result, unless the result is that
  the call which asked the client was cancelled: then a waiting call that is not cancelled itself
  starts over.

  `SettingsCalls.step` does one step of one call, or one change of the session from outside, so that
  the runs of it are all the ways in which calls can interleave.
-/
import MarkupLint.Session.Basic

namespace MarkupLint

/-- Where a call stands. -/
inductive CallPhase where
  /-- about to take the settings for all documents -/
  | global
  /-- about to look the document up -/
  | looking
  /-- has made a slot, and is about to ask the client -/
  | owning (slot : Nat)
  /-- waits for the client -/
  | fetching (slot : Nat)
  /-- has put a failure into its slot, and is about to take the slot out of the cache -/
  | failed (slot : Nat)
  /-- has filled its slot, and is about to open it -/
  | closing (slot : Nat)
  /-- waits for the slot to open -/
  | waiting (slot : Nat) (own : Bool)
  | returned (result : SettingsResult)
  deriving DecidableEq, Repr

/-- A call for the settings of a document. -/
structure SettingsCall where
  uri : String
  canceled : Bool := false
  phase : CallPhase
  deriving DecidableEq, Repr

/-- A session, and all calls that were made in it, by their numbers. -/
structure SettingsCalls where
  session : Session := {}
  calls : List SettingsCall := []
  deriving DecidableEq, Repr

/-- The steps of calls, and the changes that come from outside. -/
inductive SettingsEvent where
  /-- a call begins; `fetches` says that there is a way to ask the client -/
  | begin (uri : String) (fetches canceled : Bool)
  | takeGlobal (call : Nat)
  | lookUp (call : Nat)
  | startFetch (call : Nat)
  | endFetch (call : Nat) (result : SettingsResult)
  | discard (call : Nat)
  | complete (call : Nat)
  /-- a call sees that its slot is open -/
  | wake (call : Nat)
  /-- a call sees that it was cancelled -/
  | giveUp (call : Nat)
  | cancel (call : Nat)
  | forget (uri : String)
  | reset (settings : Option Settings)
  | announce (capabilities : Capabilities)
  deriving DecidableEq, Repr

namespace SettingsCalls

/-- The phase of a call. -/
def phase? (p : SettingsCalls) (n : Nat) : Option CallPhase := p.calls[n]?.map (·.phase)

/-- The state in which a call has moved on. -/
def move (p : SettingsCalls) (n : Nat) (s : Session) (phase : CallPhase) : SettingsCalls :=
  { session := s, calls := p.calls.modify n fun c => { c with phase := phase } }

/-- How a call goes on that sees its slot open: it starts over when it did not ask the client
    itself, the one who did was cancelled, and it is not cancelled itself. -/
def afterWait (slot : Nat) (own canceled : Bool) (s : Session) : Option CallPhase :=
  match s.result? slot with
  | none => none
  | some (.ok settings) => some (.returned (.ok settings))
  | some (.error f) =>
    if !own && !canceled && f.isCancellation then some .looking else some (.returned (.error f))

/-- One step; `none` when it cannot be taken. -/
def step (p : SettingsCalls) : SettingsEvent → Option SettingsCalls
  | .begin uri fetches canceled =>
    let phase := if p.session.capabilities.configuration && fetches then .looking else .global
    some { p with calls := p.calls ++ [⟨uri, canceled, phase⟩] }
  | .takeGlobal n =>
    match p.phase? n with
    | some .global => some (p.move n p.session (.returned (.ok p.session.global)))
    | _ => none
  | .lookUp n =>
    match p.calls[n]? with
    | some ⟨uri, _, .looking⟩ =>
      let (s, slot, own) := p.session.lookUp uri
      some (p.move n s (if own then .owning slot else .waiting slot false))
    | _ => none
  | .startFetch n =>
    match p.phase? n with
    | some (.owning slot) => some (p.move n p.session (.fetching slot))
    | _ => none
  | .endFetch n r =>
    match p.phase? n with
    | some (.fetching slot) =>
      some (p.move n (p.session.fill slot r) (if r.isOk then .closing slot else .failed slot))
    | _ => none
  | .discard n =>
    match p.calls[n]? with
    | some ⟨uri, _, .failed slot⟩ => some (p.move n (p.session.discard uri slot) (.closing slot))
    | _ => none
  | .complete n =>
    match p.phase? n with
    | some (.closing slot) => some (p.move n (p.session.complete slot) (.waiting slot true))
    | _ => none
  | .wake n =>
    match p.calls[n]? with
    | some ⟨_, canceled, .waiting slot own⟩ =>
      (afterWait slot own canceled p.session).map (p.move n p.session)
    | _ => none
  | .giveUp n =>
    match p.calls[n]? with
    | some ⟨_, true, .waiting _ _⟩ => some (p.move n p.session (.returned (.error .canceled)))
    | _ => none
  | .cancel n => some { p with calls := p.calls.modify n fun c => { c with canceled := true } }
  | .forget uri => some { p with session := p.session.forget uri }
  | .reset settings => some { p with session := p.session.reset settings }
  | .announce c => some { p with session := p.session.announce c }

/-- Takes steps in turn. -/
def run (p : SettingsCalls) (es : List SettingsEvent) : Option SettingsCalls := es.foldlM step p

/-! ## One call after the other -/

/-- The step that a call takes next when nothing holds it up. A call that waits for the client takes
    none, and of the two ways out of waiting for a slot it takes the result if there is one. -/
def next? (p : SettingsCalls) (n : Nat) : Option SettingsEvent :=
  match p.calls[n]? with
  | none => none
  | some c =>
    match c.phase with
    | .global => some (.takeGlobal n)
    | .looking => some (.lookUp n)
    | .owning _ => some (.startFetch n)
    | .fetching _ => none
    | .failed _ => some (.discard n)
    | .closing _ => some (.complete n)
    | .waiting slot _ =>
      if (p.session.result? slot).isSome then some (.wake n)
      else if c.canceled then some (.giveUp n) else none
    | .returned _ => none

/-- Lets a call go on until it waits for somebody, or for at most so many steps. -/
def advance (n : Nat) : Nat → SettingsCalls → SettingsCalls
  | 0, p => p
  | fuel + 1, p =>
    match (p.next? n).bind p.step with
    | none => p
    | some p => advance n fuel p

/-- More steps than a call takes between two moments at which it waits for somebody: it looks up at
    most twice, for a slot that brought a cancellation has left the cache before it is open. -/
def stretch : Nat := 8

/-- The result of a call that has one. -/
def returned? (p : SettingsCalls) (n : Nat) : Option SettingsResult :=
  match p.phase? n with
  | some (.returned r) => some r
  | _ => none

/-- The call waits for the client. -/
def isFetching (p : SettingsCalls) (n : Nat) : Bool :=
  match p.phase? n with
  | some (.fetching _) => true
  | _ => false

/-- Begins a call and lets it go on until it waits for somebody. The second component is its
    number. -/
def start (p : SettingsCalls) (uri : String) (fetches canceled : Bool) : SettingsCalls × Nat :=
  let n := p.calls.length
  (advance n stretch ((p.step (.begin uri fetches canceled)).getD p), n)

/-- Gives a call the client's answer, and lets it go on. -/
def supply (p : SettingsCalls) (n : Nat) (r : SettingsResult) : SettingsCalls :=
  advance n stretch ((p.step (.endFetch n r)).getD p)

end SettingsCalls
end MarkupLint
