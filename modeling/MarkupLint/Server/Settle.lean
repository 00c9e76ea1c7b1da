/-
  The server left to itself: which step it takes next, until there is nothing left to do.
-/
import MarkupLint.Server.Step

namespace MarkupLint
namespace Server

/-- The next step of a pass of a run, and what is logged on the way to it. -/
def nextPassStep? (env : Workspace.Surroundings) (s : Server) (r : LintRun) (p : Nat) :
    Workspace.NextStep :=
  match s.workspace.next? env p (s.isCanceled r) with
  | some next => some next
  | none =>
    match s.isConnected, s.workspace.fetching? p with
    | false, some c =>
      some (.settings (.endFetch c (.error (connectionLost "workspace/configuration"))), [])
    | _, _ => none

/-- The next step of a run; `none` when it has ended, or waits for somebody. -/
def nextOfRun? (env : Workspace.Surroundings) (s : Server) (n : Nat) (r : LintRun) :
    Option (ServerEvent × List LogEntry) :=
  match r.phase with
  | .ready => some (.begin n, [])
  | .passing p =>
    match s.workspace.phase? p with
    | some (.ended _) => some (.passed n, [])
    | _ => (s.nextPassStep? env r p).map fun (e, log) => (.pass n e, log)
  | .reporting _ => some (.report n, [])
  | .leaving => some (.leave n, [])
  | .ended => none

/-- The first run from number `n` on that can take a step, and the step. -/
def nextOfRuns? (env : Workspace.Surroundings) (s : Server) :
    Nat → List LintRun → Option (ServerEvent × List LogEntry)
  | _, [] => none
  | n, r :: rs =>
    match s.nextOfRun? env n r with
    | some next => some next
    | none => nextOfRuns? env s (n + 1) rs

/-- The next step: a message is done with first, timers fire before runs go on, and the client
    answers when nothing else can go on. `client` is what it sends when it is asked for settings,
    given the number of the request, if it does. -/
def next? (env : Workspace.Surroundings) (client : Option (Nat → Json)) (s : Server) :
    Option (ServerEvent × List LogEntry) :=
  match s.tasks, s.pending with
  | _ :: _, _ => some (.work, [])
  | [], (_, t) :: _ => some (.fire t, [])
  | [], [] =>
    match s.nextOfRuns? env 0 s.runs with
    | some next => some next
    | none =>
      match s.isConnected, client, s.requests with
      | true, some answer, (n, _) :: _ => some (.ofJson (answer n), [])
      | _, _, _ => none

/-- More steps than a run takes, with its timer and the answers that it waits for. -/
def stepsOfRun : Nat := 64

/-- A bound for the steps until there is nothing left to do. -/
def patience (s : Server) : Nat :=
  s.tasks.length + stepsOfRun * (1 + s.pending.length + s.requests.length +
    (s.runs.filter fun r => r.phase ≠ .ended).length)

/-- Takes the next step while there is one, for at most so many steps. -/
def settleWithin (env : Workspace.Surroundings) (client : Option (Nat → Json)) :
    Nat → Server → Reaction
  | 0, s => (s, [])
  | fuel + 1, s =>
    match s.next? env client with
    | none => (s, [])
    | some (e, log) =>
      match s.step env.files e with
      | none => (s, [])
      | some (s, out) =>
        let (s, rest) := settleWithin env client fuel s
        (s, log.map .log ++ out ++ rest)

/-- Lets the server go on until there is nothing left to do. -/
def settle (env : Workspace.Surroundings) (client : Option (Nat → Json)) (s : Server) :
    Reaction :=
  s.settleWithin env client s.patience

end Server
end MarkupLint
