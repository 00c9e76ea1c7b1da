/-
  The server, step by step: what each step can do, said once.

  `Server.effect_of_step` takes a step apart into the cases of `Server.Effect`. Of the invariants of
  a server two are needed wherever runs are followed: a run that is registered for a document is a
  run of this document, and no two runs have the same pass (`Ordered`); and what is left to do is in
  order.
-/
import MarkupLint.Proofs.ServerTasks

namespace MarkupLint

/-! ## Frames -/

/-- The run after it was cancelled. -/
def LintRun.cancel (r : LintRun) : LintRun := { r with canceled := true }

/-- The runs after one of them was cancelled, if there is one to cancel. -/
def canceledIn (runs : List LintRun) : Option Nat → List LintRun
  | some n => runs.modify n LintRun.cancel
  | none => runs

/-- The documents after a task. -/
def ServerTask.rewrite (ds : Documents) : ServerTask → Documents
  | .openDocument uri language version text => ds.opened uri language version text
  | .changeDocument uri text version => ((ds.changed uri text version).toOption).getD ds
  | .dropDocument uri => ds.closed uri
  | _ => ds

namespace Server

variable {s s' : Server} {fs : FileSystem} {trigger : Trigger}

/-- A run that is cancelled is marked as such. Its call for settings is cancelled, too, but nothing
    else. -/
theorem cancelRun_spec (s : Server) (n : Nat) :
    ∃ settings, s.cancelRun n =
      { s with
        runs := s.runs.modify n LintRun.cancel
        workspace := { s.workspace with settings := settings } } := by
  simp only [cancelRun]
  split
  · exact ⟨_, rfl⟩
  · exact ⟨_, rfl⟩

/-- The run of a document is cancelled and its place is free. -/
theorem cancelLinting_spec (s : Server) (uri : String) :
    ∃ settings running, s.cancelLinting uri =
      { s with
        pending := s.pending.erase uri
        runs := canceledIn s.runs (s.running.get? uri)
        running := running
        workspace := { s.workspace with settings := settings } } ∧
      ∀ u, running.get? u = if u = uri then none else s.running.get? u := by
  simp only [cancelLinting]
  split
  · rename_i n hn
    obtain ⟨settings, heq⟩ := cancelRun_spec { s with pending := s.pending.erase uri } n
    refine ⟨settings, s.running.erase uri, ?_, Table.get?_erase _ _⟩
    rw [heq, hn]
    rfl
  · rename_i hn
    refine ⟨s.workspace.settings, s.running, by rw [hn]; rfl, fun u => ?_⟩
    split
    · rename_i hu
      rw [hu]
      exact hn
    · rfl

/-- All calls for settings are cancelled one after the other, and the watcher goes. -/
theorem cancelWork_spec (s : Server) :
    ∃ settings, s.cancelWork =
      { s with
        watcher := none
        isClosed := true
        workspace := { s.workspace with settings := settings } } := by
  have hfold : ∀ (cs : List Nat) (w : Workspace), ∃ settings,
      cs.foldl (fun w c => w.change (.cancel c)) w = { w with settings := settings } := by
    intro cs
    induction cs with
    | nil => exact fun w => ⟨w.settings, rfl⟩
    | cons c cs ih =>
      intro w
      obtain ⟨settings, heq⟩ := ih (w.change (.cancel c))
      exact ⟨settings, heq⟩
  obtain ⟨settings, heq⟩ := hfold (List.range s.workspace.settings.calls.length) s.workspace
  refine ⟨settings, ?_⟩
  simp only [cancelWork, heq]

/-- A change that fails leaves the table of documents as it was. -/
theorem changeDocument_spec (s : Server) (uri : String) (text : Bytes) (version : Option Int) :
    s.changeDocument uri text version =
      { s with workspace := { s.workspace with
          documents :=
            ServerTask.rewrite s.workspace.documents (.changeDocument uri text version) } } := by
  unfold changeDocument Workspace.changeDocument
  cases h : s.workspace.documents.changed uri text version with
  | error f => simp [ServerTask.rewrite, h, Except.map, Except.toOption]
  | ok ds => simp [ServerTask.rewrite, h, Except.map, Except.toOption]

/-- The run that a task cancels. -/
def canceledBy (s : Server) : ServerTask → Option Nat
  | .cancelLinting uri => s.running.get? uri
  | _ => none

/-- What a task does to documents, timers and runs. -/
structure Performs (s s' : Server) (t : ServerTask) : Prop where
  documents : s'.workspace.documents = t.rewrite s.workspace.documents
  passes : s'.workspace.passes = s.workspace.passes
  tasks : s'.tasks = s.tasks
  runs : s'.runs = canceledIn s.runs (s.canceledBy t)
  running : ∀ u, t ≠ .cancelLinting u → s'.running.get? u = s.running.get? u
  registered : ∀ u n, s'.running.get? u = some n → s.running.get? u = some n
  pending : ∀ u, t ≠ .cancelLinting u → t ≠ .stopTimers → (s.pending.get? u).isSome = true →
    (s'.pending.get? u).isSome = true
  scheduled : ∀ u trigger, t = .schedule u trigger → (s'.pending.get? u).isSome = true
  closed : s.isClosed = true ∨ t = .cancelWork → s'.isClosed = true

/-- A task that does no work on documents. -/
theorem Performs.of_sameWork {t : ServerTask} (h : SameWork s s') (htasks : s'.tasks = s.tasks)
    (hdocuments : t.rewrite s.workspace.documents = s.workspace.documents)
    (hcancel : ∀ u, t ≠ .cancelLinting u) (hschedule : ∀ u trigger, t ≠ .schedule u trigger)
    (hclose : t ≠ .cancelWork) : Performs s s' t := by
  refine ⟨h.documents.trans hdocuments.symm, h.passes, htasks, ?_, fun u _ => by rw [h.running],
    fun u n hn => by rw [← h.running]; exact hn, fun u _ _ hu => ?_,
    fun u trigger ht => absurd ht (hschedule u trigger), fun hc => ?_⟩
  · rw [h.runs]
    cases t with
    | cancelLinting u => exact absurd rfl (hcancel u)
    | _ => rfl
  · rw [h.pending]
    exact hu
  · rw [h.isClosed]
    exact hc.resolve_right hclose

/-- A task that changes the table of documents. -/
theorem Performs.of_documents {t : ServerTask} {ds : Documents}
    (hds : ds = t.rewrite s.workspace.documents) (ht : ∃ u, t.Touches u) :
    Performs s { s with workspace := { s.workspace with documents := ds } } t := by
  obtain ⟨u, ht⟩ := ht
  cases t with
  | openDocument _ _ _ _ | changeDocument _ _ _ | dropDocument _ =>
    exact ⟨hds, rfl, rfl, rfl, fun _ _ => rfl, fun _ _ hn => hn, fun _ _ _ hu => hu, nofun, by simp⟩
  | _ => exact ht.elim

/-- **What a task does**, one case for each task. -/
theorem performs (s : Server) (t : ServerTask) : Performs s (s.perform t).1 t := by
  cases t with
  | setDebounce delay =>
    have htasks : (s.setDebounce delay).tasks = s.tasks := by
      unfold setDebounce
      split <;> rfl
    exact .of_sameWork (sameWork_setDebounce delay) htasks rfl nofun nofun nofun
  | configure config => exact .of_sameWork ⟨rfl, rfl, rfl, rfl, rfl, rfl⟩ rfl rfl nofun nofun nofun
  | openDocument uri language version text => exact .of_documents rfl ⟨uri, rfl⟩
  | changeDocument uri text version =>
    simp only [perform, changeDocument_spec]
    exact .of_documents rfl ⟨uri, rfl⟩
  | dropDocument uri => exact .of_documents rfl ⟨uri, rfl⟩
  | forgetSettings uri =>
    exact .of_sameWork ⟨rfl, rfl, rfl, rfl, rfl, rfl⟩ rfl rfl nofun nofun nofun
  | schedule uri trigger =>
    refine ⟨rfl, rfl, rfl, rfl, fun _ _ => rfl, fun _ _ hn => hn, fun u _ _ hu => ?_,
      fun u _ ht => ?_, by simp [perform, schedule]⟩
    · show ((s.pending.put uri s.timers.length).get? u).isSome = true
      rw [Table.get?_put]
      split
      · rfl
      · exact hu
    · obtain ⟨rfl, -⟩ := ServerTask.schedule.inj ht
      show ((s.pending.put uri s.timers.length).get? uri).isSome = true
      rw [Table.get?_put_self]
      rfl
  | cancelLinting uri =>
    obtain ⟨settings, running, heq, hrunning⟩ := cancelLinting_spec s uri
    simp only [perform, heq]
    -- the run of another document stays registered
    have hother : ∀ {u}, ServerTask.cancelLinting uri ≠ .cancelLinting u → u ≠ uri :=
      fun hu h => hu (by rw [h])
    refine ⟨rfl, rfl, rfl, rfl, fun u hu => ?_, fun u n hn => ?_, fun u hu _ hp => ?_,
      nofun, by simp⟩
    · show running.get? u = _
      rw [hrunning, if_neg (hother hu)]
    · rw [hrunning] at hn
      split at hn
      · exact absurd hn (by simp)
      · exact hn
    · rw [Table.get?_erase_of_ne _ (hother hu)]
      exact hp
  | noteShutdown => exact .of_sameWork ⟨rfl, rfl, rfl, rfl, rfl, rfl⟩ rfl rfl nofun nofun nofun
  | stopTimers =>
    exact ⟨rfl, rfl, rfl, rfl, fun _ _ => rfl, fun _ _ hn => hn, fun _ _ h => absurd rfl h, nofun,
      by simp [perform, stopTimers]⟩
  | cancelWork =>
    obtain ⟨settings, heq⟩ := cancelWork_spec s
    simp only [perform, heq]
    exact ⟨rfl, rfl, rfl, rfl, fun _ _ => rfl, fun _ _ hn => hn, fun _ _ _ hu => hu, nofun, by simp⟩
  | disconnect => exact .of_sameWork ⟨rfl, rfl, rfl, rfl, rfl, rfl⟩ rfl rfl nofun nofun nofun
  | send m => exact .of_sameWork (.refl s) rfl rfl nofun nofun nofun

/-! ## Setting timers -/

/-- Those documents and no others have got new timers, and nothing else has changed. -/
structure SetsTimersOf (those : String → Prop) (trigger : Trigger) (s s' : Server) : Prop where
  rest : s' = { s with timers := s'.timers, pending := s'.pending }
  kept : s.timers <+: s'.timers
  made : ∀ t timer, s.timers.length ≤ t → s'.timers[t]? = some timer → those timer.uri
  pending : ∀ u, those u → ∃ t, s.timers.length ≤ t ∧ s'.pending.get? u = some t ∧
    s'.timers[t]? = some ⟨u, trigger⟩
  others : ∀ u, ¬ those u → s'.pending.get? u = s.pending.get? u

/-- The timers of some documents are set in turn. -/
def scheduleEach (trigger : Trigger) (us : List String) (r : Reaction) : Reaction :=
  us.foldl (fun r u => r.andThen (·.schedule u trigger)) r

/-- Documents get their timers one after the other, and each keeps the one that it got. -/
theorem setsTimersOf_scheduleEach (trigger : Trigger) (us : List String) (r : Reaction) :
    SetsTimersOf (· ∈ us) trigger r.1 (scheduleEach trigger us r).1 := by
  induction us generalizing r with
  | nil =>
    refine ⟨rfl, List.prefix_rfl, fun t timer ht htimer => ?_, by simp, fun _ _ => rfl⟩
    rw [show (scheduleEach trigger [] r).1 = r.1 from rfl, List.getElem?_eq_none ht] at htimer
    exact absurd htimer (by simp)
  | cons v us ih =>
    have h := ih (r.andThen (·.schedule v trigger))
    have hfirst : (r.andThen (·.schedule v trigger)).1.timers = r.1.timers ++ [⟨v, trigger⟩] := rfl
    obtain ⟨new, hnew⟩ := h.kept
    -- the first of them gets the number that is free, and those behind it larger ones
    have hat : (scheduleEach trigger (v :: us) r).1.timers[r.1.timers.length]? =
        some ⟨v, trigger⟩ := by
      rw [scheduleEach, List.foldl_cons, ← scheduleEach, ← hnew, hfirst]
      simp
    refine ⟨h.rest, (List.prefix_append _ _).trans h.kept, fun t timer ht htimer => ?_,
      fun u hu => ?_, fun u hu => ?_⟩
    · rcases Nat.lt_or_eq_of_le ht with hlt | rfl
      · exact List.mem_cons_of_mem v
          (h.made t timer (by rw [hfirst]; simpa using Nat.succ_le_of_lt hlt) htimer)
      · obtain rfl := Option.some.inj (hat.symm.trans htimer)
        exact List.mem_cons_self
    · by_cases hmem : u ∈ us
      · obtain ⟨t, ht, hpending, htimer⟩ := h.pending u hmem
        exact ⟨t, Nat.le_trans (List.prefix_append _ _).length_le ht, hpending, htimer⟩
      · -- the timer of the first document is not replaced by those of the others
        obtain rfl : u = v := (List.mem_cons.mp hu).resolve_right hmem
        refine ⟨r.1.timers.length, Nat.le_refl _, ?_, hat⟩
        rw [← Table.get?_put_self r.1.pending u r.1.timers.length]
        exact h.others u hmem
    · rw [List.mem_cons, not_or] at hu
      rw [← Table.get?_put_of_ne r.1.pending r.1.timers.length hu.1]
      exact h.others u hu.2

/-- All open documents are going to be linted again. -/
def Revalidated (trigger : Trigger) (s s' : Server) : Prop :=
  SetsTimersOf (fun u => ∃ d, s.workspace.documents.get? u = some d) trigger s s'

/-- Setting all timers sets those of the open documents. -/
theorem revalidated_scheduleAll (s : Server) (trigger : Trigger) :
    Revalidated trigger s (s.scheduleAll trigger).1 := by
  have h := setsTimersOf_scheduleEach trigger s.workspace.documents.uris (s, [])
  simp only [mem_uris_iff] at h
  exact h

/-- A server in which a document is open is not the same after it has set the timers of all
    documents. -/
theorem Revalidated.ne {uri : String} {d : Document} (h : Revalidated trigger s s')
    (hd : s.workspace.documents.get? uri = some d) : s' ≠ s := by
  rintro rfl
  obtain ⟨t, ht, -, htimer⟩ := h.pending uri ⟨d, hd⟩
  rw [List.getElem?_eq_none ht] at htimer
  exact absurd htimer (by simp)

/-! ## Steps -/

/-- Timers and runs stay as they are, and so does what is left to do. -/
structure SameRuns (s s' : Server) : Prop where
  pending : s'.pending = s.pending
  runs : s'.runs = s.runs
  running : s'.running = s.running
  isClosed : s'.isClosed = s.isClosed
  tasks : s'.tasks = s.tasks

/-- A timer that fires starts a run in place of the run that is going on. -/
structure Starts (s s' : Server) (timer : LintTimer) : Prop where
  documents : s'.workspace.documents = s.workspace.documents
  passes : s'.workspace.passes = s.workspace.passes
  pending : s'.pending = s.pending.erase timer.uri
  runs : s'.runs = canceledIn s.runs (s.running.get? timer.uri) ++
    [{ uri := timer.uri, trigger := timer.trigger }]
  running : s'.running = s.running.put timer.uri s.runs.length
  isClosed : s'.isClosed = s.isClosed
  tasks : s'.tasks = s.tasks

/-- Timers are set, and nothing else happens. -/
structure SetsTimers (s s' : Server) : Prop where
  workspace : s'.workspace = s.workspace
  pending : ∀ u, (s.pending.get? u).isSome = true → (s'.pending.get? u).isSome = true
  runs : s'.runs = s.runs
  running : s'.running = s.running
  isClosed : s'.isClosed = s.isClosed
  tasks : s'.tasks = s.tasks

/-- What a step of the server can do, one case for each way in which it can go. -/
inductive Effect (s : Server) : ServerEvent → Server → Prop where
  | received (m : ClientMessage) (s' : Server) (hidle : s.tasks = []) (hsame : SameWork s s')
      (htasks : TasksOK s.workspace.documents s'.tasks) : Effect s (.receive m) s'
  | worked (t : ServerTask) (ts : List ServerTask) (ht : s.tasks = t :: ts) :
      Effect s .work ({ s with tasks := ts }.perform t).1
  | hungUp : Effect s .hangUp { s with isConnected := false }
  | late (t : Nat) : Effect s (.fire t) s
  | fired (t : Nat) (timer : LintTimer) (s' : Server) (ht : s.timers[t]? = some timer)
      (hpending : s.pending.get? timer.uri = some t) (hs' : Starts s s' timer) :
        Effect s (.fire t) s'
  | begun (n : Nat) (r : LintRun) (d : Document) (hr : s.runs[n]? = some r) (hφ : r.phase = .ready)
      (hd : s.workspace.documents.get? r.uri = some d) :
      Effect s (.begin n)
        (moveRun
          { s with
            workspace :=
              { s.workspace with passes := s.workspace.passes ++ [{ pass := ⟨d, .begun⟩ }] } }
          n (.passing s.workspace.passes.length))
  | notFound (n : Nat) (r : LintRun) (hr : s.runs[n]? = some r) (hφ : r.phase = .ready)
      (hd : s.workspace.documents.get? r.uri = none) :
      Effect s (.begin n) (s.moveRun n (.reporting (some (.notOpen r.uri))))
  | pass (n : Nat) (r : LintRun) (p : Nat) (e : WorkspaceEvent) (out : List PassOutput)
      (s' : Server) (hr : s.runs[n]? = some r) (hφ : r.phase = .passing p)
      (hallows : s.allows r p e = true)
      (hw : Workspace.Effect s.workspace e s'.workspace out) (hruns : SameRuns s s') :
      Effect s (.pass n e) s'
  | passed (n : Nat) (r : LintRun) (p : Nat) (a : ActivePass) (failure : Option Failure)
      (hr : s.runs[n]? = some r) (hφ : r.phase = .passing p) (ha : s.workspace.passes[p]? = some a)
      (hend : a.pass.phase = .ended failure) :
      Effect s (.passed n) (s.moveRun n (.reporting failure))
  | reported (n : Nat) (r : LintRun) (failure : Option Failure) (hr : s.runs[n]? = some r)
      (hφ : r.phase = .reporting failure) : Effect s (.report n) (s.moveRun n .leaving)
  | left (n : Nat) (r : LintRun) (hr : s.runs[n]? = some r) (hφ : r.phase = .leaving) :
      Effect s (.leave n) (s.leave n r.uri)
  | watched (e : WatchEvent) (s' : Server) (hs' : SetsTimers s s') : Effect s (.watch e) s'

/-- A timer fires too late if it is no longer the one of its document. -/
theorem effect_of_fire {t : Nat} (h : s.fire t = some s') : Effect s (.fire t) s' := by
  unfold fire at h
  split at h
  · exact absurd h (by simp)
  · rename_i timer ht
    split at h
    · rename_i hpending
      refine .fired t timer s' ht hpending ?_
      obtain rfl := Option.some.inj h
      -- the run that is going on for the document, if there is one, is cancelled
      cases hrunning : s.running.get? timer.uri with
      | none => exact ⟨rfl, rfl, rfl, by simp [canceledIn, hrunning], rfl, rfl, rfl⟩
      | some n =>
        obtain ⟨settings, heq⟩ := cancelRun_spec { s with pending := s.pending.erase timer.uri } n
        simp only [heq, List.length_modify]
        exact ⟨rfl, rfl, rfl, by rw [hrunning]; rfl, rfl, rfl, rfl⟩
    · obtain rfl := Option.some.inj h
      exact .late t

/-- A run that is ready takes its document, if that is still open. -/
theorem effect_of_begin {n : Nat} {r : LintRun} (hr : s.runs[n]? = some r) (hφ : r.phase = .ready) :
    Effect s (.begin n) (s.beginRun n r).1 := by
  unfold beginRun
  split
  · rename_i hstep
    refine .notFound n r hr hφ ?_
    simp only [Workspace.step, Pass.begin] at hstep
    cases hd : s.workspace.documents.get? r.uri with
    | none => rfl
    | some d => rw [hd] at hstep; exact absurd hstep (by simp)
  · rename_i w out hstep
    cases Workspace.effect_of_step hstep with
    | begin _ _ d hd => exact .begun n r d hr hφ hd
    | pass _ _ _ _ _ _ _ he _ => cases he

/-- A step of a run is one of its pass. -/
theorem effect_of_stepRun {n p : Nat} {r : LintRun} {e : WorkspaceEvent} {out : List ServerOutput}
    (hr : s.runs[n]? = some r) (hφ : r.phase = .passing p) (h : s.stepRun r p e = some (s', out)) :
    Effect s (.pass n e) s' := by
  -- the run may take the step, and its workspace does
  unfold stepRun at h
  split at h
  · rename_i hallows
    obtain ⟨⟨w, wout⟩, hstep, heq⟩ := Option.map_eq_some_iff.mp h
    have hw := Workspace.effect_of_step hstep
    -- asking the client changes nothing but the open requests
    simp only at heq
    split at heq
    · obtain ⟨rfl, -⟩ := Prod.mk.inj heq
      exact .pass n r p _ wout _ hr hφ hallows hw ⟨rfl, rfl, rfl, rfl, rfl⟩
    · obtain ⟨rfl, -⟩ := Prod.mk.inj heq
      exact .pass n r p _ wout _ hr hφ hallows hw ⟨rfl, rfl, rfl, rfl, rfl⟩
  · exact absurd h (by simp)

/-- A timer that is replaced was there before and is there afterwards. -/
theorem SetsTimersOf.setsTimers {those : String → Prop} (h : SetsTimersOf those trigger s s') :
    SetsTimers s s' := by
  have hrest := h.rest
  refine ⟨by rw [hrest], fun u hu => ?_, by rw [hrest], by rw [hrest], by rw [hrest], by rw [hrest]⟩
  by_cases hthose : those u
  · obtain ⟨t, -, hpending, -⟩ := h.pending u hthose
    rw [hpending]
    rfl
  · rw [h.others u hthose]
    exact hu

/-- What the watcher sees sets timers at most. -/
theorem effect_of_watch (w : Watcher) (e : WatchEvent) :
    Effect s (.watch e) (s.watch fs w e).1 := by
  refine .watched e _ ?_
  simp only [watch]
  split
  · exact ⟨rfl, fun _ h => h, rfl, rfl, rfl, rfl⟩
  · have h :=
      (revalidated_scheduleAll { s with watcher := some (w.step fs e).1 } .configChanged).setsTimers
    exact ⟨h.workspace, h.pending, h.runs, h.running, h.isClosed, h.tasks⟩

/-- Every step of the server has one of the effects. -/
theorem effect_of_step {e : ServerEvent} {out : List ServerOutput}
    (h : s.step fs e = some (s', out)) : Effect s e s' := by
  cases e with
  | receive m =>
    simp only [step] at h
    split at h
    · rename_i hmay
      have hidle : s.tasks = [] := by simpa using (Bool.and_eq_true_iff.mp hmay).2
      obtain ⟨hsame, -, htasks⟩ := receive_spec hidle fs m
      rw [Option.some.inj h] at hsame htasks
      exact .received m s' hidle hsame htasks
    · exact absurd h (by simp)
  | work =>
    simp only [step] at h
    split at h
    · rename_i t ts ht
      obtain rfl : _ = s' := congrArg Prod.fst (Option.some.inj h)
      exact .worked t ts ht
    · exact absurd h (by simp)
  | hangUp =>
    obtain ⟨rfl, -⟩ := Prod.mk.inj (Option.some.inj h)
    exact .hungUp
  | fire t =>
    obtain ⟨u, hu, heq⟩ := Option.map_eq_some_iff.mp h
    obtain ⟨rfl, -⟩ := Prod.mk.inj heq
    exact effect_of_fire hu
  | begin n =>
    simp only [step] at h
    split at h
    · rename_i r hr
      split at h
      · obtain rfl : _ = s' := congrArg Prod.fst (Option.some.inj h)
        exact effect_of_begin hr ‹_›
      · exact absurd h (by simp)
    · exact absurd h (by simp)
  | pass n e =>
    simp only [step] at h
    split at h
    · rename_i r hr
      split at h
      · exact effect_of_stepRun hr ‹_› h
      · exact absurd h (by simp)
    · exact absurd h (by simp)
  | passed n =>
    simp only [step] at h
    split at h
    · rename_i p hp
      obtain ⟨r, hr, hφ⟩ := Option.map_eq_some_iff.mp hp
      split at h
      · rename_i failure hend
        obtain ⟨a, ha, haφ⟩ := Option.map_eq_some_iff.mp hend
        obtain ⟨rfl, -⟩ := Prod.mk.inj (Option.some.inj h)
        exact .passed n r p a failure hr hφ ha haφ
      · exact absurd h (by simp)
    · exact absurd h (by simp)
  | report n =>
    simp only [step] at h
    split at h
    · rename_i failure hp
      obtain ⟨r, hr, hφ⟩ := Option.map_eq_some_iff.mp hp
      obtain ⟨rfl, -⟩ := Prod.mk.inj (Option.some.inj h)
      exact .reported n r failure hr hφ
    · exact absurd h (by simp)
  | leave n =>
    simp only [step] at h
    split at h
    · rename_i r hr
      split at h
      · obtain ⟨rfl, -⟩ := Prod.mk.inj (Option.some.inj h)
        exact .left n r hr ‹_›
      · exact absurd h (by simp)
    · exact absurd h (by simp)
  | watch e =>
    simp only [step] at h
    split at h
    · split at h
      · exact absurd h (by simp)
      · obtain rfl : _ = s' := congrArg Prod.fst (Option.some.inj h)
        exact effect_of_watch _ e
    · exact absurd h (by simp)

/-! ## Runs and their passes -/

/-- The run of this number is a run of the document. -/
def IsRunOf (runs : List LintRun) (n : Nat) (uri : String) : Prop :=
  ∃ r, runs[n]? = some r ∧ r.uri = uri

/-- The run of number `n` is in its pass, the pass of number `p`. -/
def InPass (runs : List LintRun) (n p : Nat) : Prop := ∃ r, runs[n]? = some r ∧ r.phase = .passing p

/-- Runs stay what they are runs of, and none of them comes by a pass. -/
structure RunsKept (runs runs' : List LintRun) : Prop where
  uri : ∀ n u, IsRunOf runs n u → IsRunOf runs' n u
  pass : ∀ n p, InPass runs' n p → InPass runs n p

theorem RunsKept.refl (runs : List LintRun) : RunsKept runs runs := ⟨fun _ _ h => h, fun _ _ h => h⟩

/-- A change of a run that leaves its document leaves the documents of all runs. -/
theorem isRunOf_modify (runs : List LintRun) (n : Nat) {f : LintRun → LintRun}
    (huri : ∀ r, (f r).uri = r.uri) (m : Nat) (u : String) :
    IsRunOf (runs.modify n f) m u ↔ IsRunOf runs m u := by
  constructor
  · rintro ⟨r', hr', rfl⟩
    obtain ⟨r, hr, ⟨-, rfl⟩ | ⟨-, rfl⟩⟩ := getElem?_modify_cases hr'
    · exact ⟨r, hr, (huri r).symm⟩
    · exact ⟨r', hr, rfl⟩
  · rintro ⟨r, hr, rfl⟩
    refine ⟨if n = m then f r else r, ?_, ?_⟩
    · rw [List.getElem?_modify, hr]
      rfl
    · split
      · exact huri r
      · rfl

/-- One that gives it no pass gives none to any run. -/
theorem runsKept_modify (runs : List LintRun) (n : Nat) {f : LintRun → LintRun}
    (huri : ∀ r, (f r).uri = r.uri) (hφ : ∀ r p, (f r).phase = .passing p → r.phase = .passing p) :
    RunsKept runs (runs.modify n f) := by
  refine ⟨fun m u h => (isRunOf_modify runs n huri m u).mpr h, fun m p h => ?_⟩
  obtain ⟨r', hr', hp⟩ := h
  obtain ⟨r, hr, ⟨-, rfl⟩ | ⟨-, rfl⟩⟩ := getElem?_modify_cases hr'
  · exact ⟨r, hr, hφ r p hp⟩
  · exact ⟨r', hr, hp⟩

/-- To cancel a run changes neither the documents nor the passes of runs. -/
theorem runsKept_canceledIn (runs : List LintRun) (o : Option Nat) :
    RunsKept runs (canceledIn runs o) := by
  cases o with
  | none => exact .refl runs
  | some n => exact runsKept_modify runs n (fun _ => rfl) (fun _ _ hφ => hφ)

theorem isRunOf_canceledIn (runs : List LintRun) (o : Option Nat) (m : Nat) (u : String) :
    IsRunOf (canceledIn runs o) m u ↔ IsRunOf runs m u := by
  cases o with
  | none => exact Iff.rfl
  | some n => exact isRunOf_modify runs n (f := LintRun.cancel) (fun _ => rfl) m u

theorem length_canceledIn (runs : List LintRun) (o : Option Nat) :
    (canceledIn runs o).length = runs.length := by
  cases o with
  | none => rfl
  | some n => exact List.length_modify ..

/-- A run that has just been started has no pass. -/
theorem runsKept_append (runs : List LintRun) (new : LintRun) (hnew : new.phase = .ready) :
    RunsKept runs (runs ++ [new]) := by
  refine ⟨fun n u h => ?_, fun n p h => ?_⟩
  · obtain ⟨r, hr, hu⟩ := h
    refine ⟨r, ?_, hu⟩
    rw [List.getElem?_append_left (List.getElem?_eq_some_iff.mp hr).1]
    exact hr
  · -- a run with a pass is one of those before
    obtain ⟨r, hr, hφ⟩ := h
    rw [List.getElem?_append] at hr
    split at hr
    · exact ⟨r, hr, hφ⟩
    · rw [List.mem_singleton.mp (List.mem_of_getElem? hr), hnew] at hφ
      exact absurd hφ (by simp)

/-- A run that is registered for a document is a run of this document. Passes have one run each. -/
structure Ordered (s : Server) : Prop where
  running : ∀ u n, s.running.get? u = some n → IsRunOf s.runs n u
  pass : ∀ n p, InPass s.runs n p → p < s.workspace.passes.length
  single : ∀ m n p, InPass s.runs m p → InPass s.runs n p → m = n

/-- The order of runs depends on documents and passes alone. -/
theorem Ordered.of_kept (h : Ordered s) (hruns : RunsKept s.runs s'.runs)
    (hrunning : ∀ u n, s'.running.get? u = some n → s.running.get? u = some n ∨ IsRunOf s'.runs n u)
    (hpasses : s.workspace.passes.length ≤ s'.workspace.passes.length) : Ordered s' := by
  refine ⟨fun u n hn => ?_, fun n p hp => ?_, fun m n p hm hn => ?_⟩
  · rcases hrunning u n hn with hold | hnew
    · exact hruns.uri n u (h.running u n hold)
    · exact hnew
  · exact Nat.lt_of_lt_of_le (h.pass n p (hruns.pass n p hp)) hpasses
  · exact h.single m n p (hruns.pass m p hm) (hruns.pass n p hn)

/-- To cancel the run of a document leaves those of other documents alone. -/
theorem Ordered.getElem?_canceledIn (h : Ordered s) {n : Nat} {u v : String}
    (hn : IsRunOf s.runs n u) (hv : v ≠ u) :
    (canceledIn s.runs (s.running.get? v))[n]? = s.runs[n]? := by
  cases hm : s.running.get? v with
  | none => rfl
  | some m =>
    obtain ⟨r, hr, rfl⟩ := h.running v m hm
    obtain ⟨r', hr', rfl⟩ := hn
    have hne : m ≠ n := by
      rintro rfl
      rw [hr] at hr'
      exact hv (congrArg LintRun.uri (Option.some.inj hr'))
    exact List.getElem?_modify_ne _ _ hne

/-- A run moves on, and not to a pass. -/
theorem Ordered.moveRun (h : Ordered s) (n : Nat) {φ : RunPhase} (hφ : ∀ p, φ ≠ .passing p) :
    Ordered (s.moveRun n φ) :=
  h.of_kept (runsKept_modify s.runs n (fun _ => rfl) fun _ p hp => absurd hp (hφ p))
    (fun _ _ hn => .inl hn) (Nat.le_refl _)

/-- A new run is registered for the document of its timer. -/
theorem Ordered.starts {timer : LintTimer} (h : Ordered s) (hs' : Starts s s' timer) :
    Ordered s' := by
  have hcanceled := runsKept_canceledIn s.runs (s.running.get? timer.uri)
  have hstarted := runsKept_append (canceledIn s.runs (s.running.get? timer.uri))
    { uri := timer.uri, trigger := timer.trigger } rfl
  refine h.of_kept ?_ (fun u n hn => ?_) (Nat.le_of_eq (by rw [hs'.passes]))
  · rw [hs'.runs]
    exact ⟨fun n u h => hstarted.uri n u (hcanceled.uri n u h),
      fun n p h => hcanceled.pass n p (hstarted.pass n p h)⟩
  · rw [hs'.running, Table.get?_put] at hn
    split at hn
    · rename_i hu
      obtain rfl := Option.some.inj hn
      refine .inr ⟨{ uri := timer.uri, trigger := timer.trigger }, ?_, hu.symm⟩
      rw [hs'.runs, ← length_canceledIn s.runs (s.running.get? timer.uri)]
      exact List.getElem?_concat_length
    · exact .inl hn

/-- A run begins a pass that is new. -/
theorem Ordered.begun {n : Nat} {a : ActivePass} (h : Ordered s) :
    Ordered (Server.moveRun
      { s with workspace := { s.workspace with passes := s.workspace.passes ++ [a] } }
      n (.passing s.workspace.passes.length)) := by
  -- a run in a pass is the one that has just begun, or was in that pass before
  have hcases : ∀ {m p},
      InPass (s.runs.modify n ({ · with phase := .passing s.workspace.passes.length })) m p →
      (m = n ∧ p = s.workspace.passes.length) ∨
        (InPass s.runs m p ∧ p < s.workspace.passes.length) := by
    intro m p hp
    obtain ⟨r', hr', hφ⟩ := hp
    obtain ⟨r, hr, ⟨hm, rfl⟩ | ⟨-, rfl⟩⟩ := getElem?_modify_cases hr'
    · exact .inl ⟨hm.symm, (RunPhase.passing.inj hφ).symm⟩
    · exact .inr ⟨⟨r', hr, hφ⟩, h.pass m p ⟨r', hr, hφ⟩⟩
  refine ⟨fun u m hm => (isRunOf_modify s.runs n ?_ m u).mpr (h.running u m hm),
    fun m p hp => ?_, fun m m' p hm hm' => ?_⟩
  · exact fun _ => rfl
  · show p < (s.workspace.passes ++ [a]).length
    rw [List.length_append, List.length_singleton]
    rcases hcases hp with ⟨-, rfl⟩ | ⟨-, hlt⟩ <;> omega
  · -- passes that were there are below the number of the new one
    rcases hcases hm with ⟨rfl, rfl⟩ | ⟨hold, hlt⟩ <;>
      rcases hcases hm' with ⟨rfl, hp⟩ | ⟨hold', hlt'⟩
    · rfl
    · omega
    · omega
    · exact h.single m m' p hold hold'

/-- **What one step preserves**: the order of runs and passes. -/
theorem Effect.ordered {e : ServerEvent} (h : Effect s e s') (hs : Ordered s) : Ordered s' := by
  cases h with
  | received m s' hidle hsame htasks =>
    refine hs.of_kept (by rw [hsame.runs]; exact .refl _) (fun u n hn => .inl ?_)
      (Nat.le_of_eq (by rw [hsame.passes]))
    rw [← hsame.running]
    exact hn
  | worked t ts ht =>
    have hp := performs { s with tasks := ts } t
    refine hs.of_kept ?_ (fun u n hn => .inl (hp.registered u n hn))
      (Nat.le_of_eq (by rw [hp.passes]))
    rw [hp.runs]
    exact runsKept_canceledIn _ _
  | hungUp => exact hs.of_kept (.refl _) (fun _ _ hn => .inl hn) (Nat.le_refl _)
  | late t => exact hs
  | fired t timer s' ht hpending hs' => exact hs.starts hs'
  | begun n r d hr hφ hd => exact hs.begun
  | notFound n r hr hφ hd => exact hs.moveRun n (by simp)
  | pass n r p e out s' hr hφ hallows hw hruns =>
    refine hs.of_kept (by rw [hruns.runs]; exact .refl _)
      (fun u m hm => .inl ?_) hw.passes_length_le
    rw [← hruns.running]
    exact hm
  | passed n r p a failure hr hφ ha hend => exact hs.moveRun n (by simp)
  | reported n r failure hr hφ => exact hs.moveRun n (by simp)
  -- a run that leaves gives up its place, if it still has it
  | left n r hr hφ =>
    refine hs.of_kept (runsKept_modify s.runs n (fun _ => rfl) fun _ p hp => absurd hp (by simp))
      (fun u m hm => .inl ?_) (Nat.le_refl _)
    simp only [leave] at hm
    split at hm
    · exact Table.get?_of_get?_erase hm
    · exact hm
  | watched e s' hs' =>
    refine hs.of_kept (by rw [hs'.runs]; exact .refl _) (fun u n hn => .inl ?_)
      (Nat.le_of_eq (by rw [hs'.workspace]))
    rw [← hs'.running]
    exact hn

/-! ## Documents, and what is left to do -/

/-- A pass leaves the table of documents alone. -/
theorem documents_of_allows {r : LintRun} {p : Nat} {e : WorkspaceEvent} {w : Workspace}
    {out : List PassOutput} (hallows : s.allows r p e = true)
    (h : Workspace.Effect s.workspace e w out) : w.documents = s.workspace.documents := by
  cases h with
  | opened _ _ _ _ => exact absurd hallows (by simp [allows])
  | changed _ _ _ _ _ => exact absurd hallows (by simp [allows])
  | closed _ => exact absurd hallows (by simp [allows])
  | settings _ _ _ => rfl
  | begin _ _ _ _ => rfl
  | ask _ _ _ _ _ _ _ => rfl
  | pass _ _ _ _ _ _ _ _ _ => rfl

/-- A pass leaves other passes alone. -/
theorem passes_of_allows {r : LintRun} {p q : Nat} {e : WorkspaceEvent} {w : Workspace}
    {out : List PassOutput} (hallows : s.allows r p e = true)
    (h : Workspace.Effect s.workspace e w out) (hq : p ≠ q) :
    w.passes[q]? = s.workspace.passes[q]? := by
  cases h with
  | opened _ _ _ _ => rfl
  | changed _ _ _ _ _ => rfl
  | closed _ => rfl
  | settings _ _ _ => rfl
  | begin _ _ _ _ => exact absurd hallows (by simp [allows])
  -- a run takes steps of its own pass only
  | ask n canceled _ _ _ _ _ =>
    have hn : n = p := by
      simp only [allows, Bool.and_eq_true, decide_eq_true_eq] at hallows
      exact hallows.1
    exact List.getElem?_modify_ne _ _ (hn ▸ hq)
  | pass _ n _ _ _ _ _ he _ =>
    have hn : n = p := by
      cases he with
      | checkCanceled _ canceled =>
        simp only [allows, Bool.and_eq_true, decide_eq_true_eq] at hallows
        exact hallows.1
      | _ => simpa [allows] using hallows
    exact List.getElem?_modify_ne _ _ (hn ▸ hq)

/-- Documents change by tasks only, and only tasks are ever done. -/
theorem Effect.documents_cases {e : ServerEvent} (h : Effect s e s') :
    (∃ t ts, e = .work ∧ s.tasks = t :: ts ∧ s'.tasks = ts ∧
      s'.workspace.documents = t.rewrite s.workspace.documents) ∨
    (e ≠ .work ∧ s'.workspace.documents = s.workspace.documents ∧
      (s'.tasks = s.tasks ∨
        (∃ m, e = .receive m) ∧ s.tasks = [] ∧ TasksOK s'.workspace.documents s'.tasks)) := by
  cases h with
  | received m s' hidle hsame htasks =>
    exact .inr ⟨nofun, hsame.documents,
      .inr ⟨⟨m, rfl⟩, hidle, by rw [hsame.documents]; exact htasks⟩⟩
  | worked t ts ht =>
    have hp := performs { s with tasks := ts } t
    exact .inl ⟨t, ts, rfl, ht, hp.tasks, hp.documents⟩
  | hungUp => exact .inr ⟨nofun, rfl, .inl rfl⟩
  | late t => exact .inr ⟨nofun, rfl, .inl rfl⟩
  | fired t timer s' ht hpending hs' => exact .inr ⟨nofun, hs'.documents, .inl hs'.tasks⟩
  | begun n r d hr hφ hd => exact .inr ⟨nofun, rfl, .inl rfl⟩
  | notFound n r hr hφ hd => exact .inr ⟨nofun, rfl, .inl rfl⟩
  | pass n r p e out s' hr hφ hallows hw hruns =>
    exact .inr ⟨nofun, documents_of_allows hallows hw, .inl hruns.tasks⟩
  | passed n r p a failure hr hφ ha hend => exact .inr ⟨nofun, rfl, .inl rfl⟩
  | reported n r failure hr hφ => exact .inr ⟨nofun, rfl, .inl rfl⟩
  | left n r hr hφ => exact .inr ⟨nofun, rfl, .inl rfl⟩
  | watched e s' hs' => exact .inr ⟨nofun, by rw [hs'.workspace], .inl hs'.tasks⟩

/-- Passes begin when a run takes its document, and go on by steps of their own. -/
theorem Effect.passes_cases {e : ServerEvent} (h : Effect s e s') :
    s'.workspace.passes = s.workspace.passes ∨
    (∃ d, s'.workspace.passes = s.workspace.passes ++ [{ pass := ⟨d, .begun⟩ }]) ∨
    (∃ n we out, e = .pass n we ∧ Workspace.Effect s.workspace we s'.workspace out) := by
  cases h with
  | received m s' hidle hsame htasks => exact .inl hsame.passes
  | worked t ts ht => exact .inl (performs { s with tasks := ts } t).passes
  | hungUp => exact .inl rfl
  | late t => exact .inl rfl
  | fired t timer s' ht hpending hs' => exact .inl hs'.passes
  | begun n r d hr hφ hd => exact .inr (.inl ⟨d, rfl⟩)
  | notFound n r hr hφ hd => exact .inl rfl
  | pass n r p e out s' hr hφ hallows hw hruns => exact .inr (.inr ⟨n, e, out, rfl, hw⟩)
  | passed n r p a failure hr hφ ha hend => exact .inl rfl
  | reported n r failure hr hφ => exact .inl rfl
  | left n r hr hφ => exact .inl rfl
  | watched e s' hs' => exact .inl (by rw [hs'.workspace])

end Server

/-- A task leaves the documents that it does not name. -/
theorem ServerTask.get?_rewrite_of_not_touches {t : ServerTask} {uri : String} (ds : Documents)
    (h : ¬ t.Touches uri) : (t.rewrite ds).get? uri = ds.get? uri := by
  cases t with
  | openDocument u _ _ _ => exact Table.get?_put_of_ne _ _ fun hu => h hu.symm
  | changeDocument u text version =>
    simp only [rewrite, Documents.changed]
    split
    · rfl
    · exact Table.get?_put_of_ne _ _ fun hu => h hu.symm
  | dropDocument u => exact Table.get?_erase_of_ne _ fun hu => h hu.symm
  | _ => rfl

/-- Whoever changes the table of documents leaves no change of the settings for all documents to
    do. -/
theorem ServerTask.FollowedBy.rewrite {ds : Documents} {t : ServerTask} {ts : List ServerTask}
    (h : t.FollowedBy ds ts) (hts : TasksOK ds ts) : TasksOK (t.rewrite ds) ts := by
  cases t with
  | openDocument u _ _ _ => exact hts.of_noConfigure h.2
  | changeDocument u _ _ => exact hts.of_noConfigure h.2
  | dropDocument u => exact hts.of_noConfigure h
  | _ => exact hts

namespace Server

variable {s s' : Server} {fs : FileSystem}

/-- **What one step preserves**: what is left to do is in order. -/
theorem Effect.tasksOK {e : ServerEvent} (h : Effect s e s')
    (hs : TasksOK s.workspace.documents s.tasks) : TasksOK s'.workspace.documents s'.tasks := by
  -- a task is done, or nothing changes, or a message leaves new tasks
  rcases h.documents_cases with ⟨t, ts, -, ht, ht', hds⟩ | ⟨-, hds, ht' | ⟨-, -, hok⟩⟩
  · rw [ht] at hs
    rw [ht', hds]
    cases hs with
    | cons hfollowed hts => exact hfollowed.rewrite hts
  · rw [hds, ht']
    exact hs
  · exact hok

/-! ## Courses -/

/-- A moment in the course of a server. -/
abbrev Instant := Moment Server ServerEvent

/-- One step, whatever it lets out. -/
def next (fs : FileSystem) (s : Server) (e : ServerEvent) : Option Server := (s.step fs e).map (·.1)

/-- A server before its client has said anything. -/
def fresh (debounce : Int) : Server := { debounce := debounce }

theorem effect_of_next {e : ServerEvent} (h : next fs s e = some s') : Effect s e s' := by
  obtain ⟨⟨u, out⟩, hstep, rfl⟩ := Option.map_eq_some_iff.mp h
  exact effect_of_step hstep

/-- Runs and passes are in order at all times. -/
theorem ordered_of_course {debounce : Int} {ms : List Instant}
    (h : Course (next fs) (fresh debounce) ms s) : Ordered s := by
  induction h with
  | nil =>
    refine ⟨fun u n hn => ?_, fun n p hp => ?_, fun m n p hm => ?_⟩
    · exact absurd hn (by simp [fresh])
    · obtain ⟨r, hr, -⟩ := hp
      exact absurd hr (by simp [fresh])
    · obtain ⟨r, hr, -⟩ := hm
      exact absurd hr (by simp [fresh])
  | snoc _ hstep ih => exact (effect_of_next hstep).ordered ih

/-- What is left to do is in order at all times. -/
theorem tasksOK_of_course {debounce : Int} {ms : List Instant}
    (h : Course (next fs) (fresh debounce) ms s) : TasksOK s.workspace.documents s.tasks := by
  induction h with
  | nil => exact .nil
  | snoc _ hstep ih => exact (effect_of_next hstep).tasksOK ih

/-! ## Stretches of courses -/

/-- The client opens a document, or changes its text. -/
def opening (uri text : String) (version : Int) : ServerEvent :=
  .receive (.notification "textDocument/didOpen" (some (.obj [("textDocument",
    .obj [("uri", .str uri), ("languageId", .str "html"), ("version", .int version),
      ("text", .str text)])])))

def changing (uri text : String) (version : Int) : ServerEvent :=
  .receive (.notification "textDocument/didChange" (some (.obj [
    ("textDocument", .obj [("uri", .str uri), ("version", .int version)]),
    ("contentChanges", .arr [.obj [("text", .str text)]])])))

/-- The run of number `n` goes through its pass up to the moment at which it is about to show what
    it has found. Its call for settings has the number `c`. -/
def judging (n p c : Nat) : List ServerEvent :=
  [.begin n, .pass n (.readGlobal p), .pass n (.ask p false), .pass n (.settings (.takeGlobal c)),
    .pass n (.gotSettings p), .pass n (.gotConfig p (.ok [])), .pass n (.linted p (.ok none)),
    .pass n (.checkCanceled p false), .pass n (.checkCurrent p)]

/-- The run goes on to its end. -/
def concluding (n p : Nat) : List ServerEvent :=
  [.pass n (.publish p), .pass n (.finish p), .passed n, .report n, .leave n]

end Server
end MarkupLint
