/-
  At most one run of a document goes on.

  Everybody may ask for a document to be linted, give up linting it, or close the server, at any
  time; timers fire when they like, even those that were stopped or replaced; and runs end when they
  like. So courses are looked at in which any task can come between any two steps (`happen`).

  What can happen to runs is said once (`Turn`). Of every turn it is plain that a run which goes on
  and is not cancelled stays the one that is registered for its document (`Registered`). A timer
  that has started a run, was replaced or was stopped is not pending, and none of the timers that
  are there ever comes to be (`Spent`).
-/
import MarkupLint.Proofs.Timers

namespace MarkupLint

/-- What can happen to a server: a task is done, asked for by a message or not, or the server takes
    a step. -/
inductive Happening where
  | task (t : ServerTask)
  | step (e : ServerEvent)

namespace Server

variable {ms : List (Moment Server Happening)} {x : Moment Server Happening} {s s' : Server}
  {fs : FileSystem} {e : Happening} {debounce : Int} {timer : LintTimer} {uri : String}
  {i j k m n t : Nat}

/-- The server after something has happened to it, if it can happen. -/
def happen (fs : FileSystem) (s : Server) : Happening → Option Server
  | .task t => some (s.perform t).1
  | .step e => next fs s e

/-- At this moment a task is done. -/
def Does (t : ServerTask) (x : Moment Server Happening) : Prop :=
  x.event = .task t ∨ (x.event = .step .work ∧ ∃ ts, x.state.tasks = t :: ts)

/-! ## What can happen to runs -/

/-- One case for each way in which runs can change. -/
inductive Turn (s : Server) (e : Happening) (s' : Server) : Prop where
  | same (hruns : s'.runs = s.runs) (hrunning : s'.running = s.running)
  | moved (n : Nat) (r : LintRun) (φ : RunPhase) (hr : s.runs[n]? = some r) (hφ : r.phase ≠ .ended)
      (hruns : s'.runs = s.runs.modify n fun r => { r with phase := φ })
      (hrunning : s'.running = s.running)
  | performed (t : ServerTask) (hruns : s'.runs = canceledIn s.runs (s.canceledBy t))
      (hrunning : ∀ u, t ≠ .cancelLinting u → s'.running.get? u = s.running.get? u)
  | started (t : Nat) (timer : LintTimer) (he : e = .step (.fire t))
      (ht : s.timers[t]? = some timer)
      (hpending : s.pending.get? timer.uri = some t) (hs' : Starts s s' timer)
  | left (n : Nat) (r : LintRun) (hr : s.runs[n]? = some r) (hs' : s' = s.leave n r.uri)

/-- Nothing else happens to runs. A task is done in the same way whether a message has asked for it
    or not. -/
theorem turn_of_happen (h : happen fs s e = some s') : Turn s e s' := by
  cases e with
  | task t =>
    obtain rfl := Option.some.inj h
    exact .performed t (performs s t).runs (performs s t).running
  | step e =>
    cases effect_of_next h with
    | received m _ hidle hsame htasks => exact .same hsame.runs hsame.running
    | worked t ts ht =>
      have h := performs { s with tasks := ts } t
      exact .performed t h.runs h.running
    | hungUp => exact .same rfl rfl
    | late t => exact .same rfl rfl
    | fired t timer _ ht hpending hs' => exact .started t timer rfl ht hpending hs'
    | begun n r d hr hφ hd => exact .moved n r _ hr (by simp [hφ]) rfl rfl
    | notFound n r hr hφ hd => exact .moved n r _ hr (by simp [hφ]) rfl rfl
    | pass n r p e _ _ hr hφ hallows hw hruns => exact .same hruns.runs hruns.running
    | passed n r p a failure hr hφ ha hend => exact .moved n r _ hr (by simp [hφ]) rfl rfl
    | reported n r failure hr hφ => exact .moved n r _ hr (by simp [hφ]) rfl rfl
    | left n r hr hφ => exact .left n r hr rfl
    | watched e _ hs' => exact .same hs'.runs hs'.running

/-- Timers are kept through all that happens. -/
theorem ticks_of_happen (h : happen fs s e = some s') : Ticks s s' := by
  cases e with
  | task t =>
    obtain rfl := Option.some.inj h
    exact ticks_perform s t
  | step e => exact ticks_of_next h

/-! ## Registered runs -/

/-- A run that goes on and is not cancelled is the one that is registered for its document. -/
def Registered (s : Server) : Prop :=
  ∀ n r, s.runs[n]? = some r → r.phase ≠ .ended → r.canceled = false → s.running.get? r.uri = some n

/-- A run that is not cancelled was not the one to be cancelled. -/
theorem getElem?_canceledIn_cases {runs : List LintRun} {o : Option Nat} {r : LintRun}
    (h : (canceledIn runs o)[n]? = some r) (hr : r.canceled = false) :
    runs[n]? = some r ∧ o ≠ some n := by
  cases o with
  | none => exact ⟨h, by simp⟩
  | some m =>
    obtain ⟨r', hr', ⟨-, rfl⟩ | ⟨hne, rfl⟩⟩ := getElem?_modify_cases h
    · exact absurd hr (by simp [LintRun.cancel])
    · exact ⟨hr', by simpa using hne⟩

/-- **What one turn preserves**: a run that goes on and is not cancelled stays registered. -/
theorem Turn.registered (h : Turn s e s') (hs : Registered s) : Registered s' := by
  intro m r' hr' hφ' hc'
  cases h with
  | same hruns hrunning =>
    rw [hruns] at hr'
    rw [hrunning]
    exact hs m r' hr' hφ' hc'
  | moved n r φ hr hφ hruns hrunning =>
    rw [hruns] at hr'
    rw [hrunning]
    obtain ⟨r₀, hr₀, ⟨rfl, rfl⟩ | ⟨-, rfl⟩⟩ := getElem?_modify_cases hr'
    · obtain rfl := Option.some.inj (hr.symm.trans hr₀)
      exact hs n r hr hφ hc'
    · exact hs m r' hr₀ hφ' hc'
  -- a document loses its run only by the task that cancels this run
  | performed t hruns hrunning =>
    rw [hruns] at hr'
    obtain ⟨hr₀, hne⟩ := getElem?_canceledIn_cases hr' hc'
    have hold := hs m r' hr₀ hφ' hc'
    rw [hrunning]
    · exact hold
    · rintro rfl
      exact hne hold
  -- the run before it is cancelled, so the new one may take its place
  | started t timer he ht hpending hs' =>
    rw [hs'.runs] at hr'
    rw [hs'.running]
    rcases getElem?_snoc_cases hr' with hold | ⟨hm, rfl⟩
    · obtain ⟨hr₀, hne⟩ := getElem?_canceledIn_cases hold hc'
      have hold := hs m r' hr₀ hφ' hc'
      rw [Table.get?_put_of_ne _ _ fun huri => hne (by rw [← huri]; exact hold)]
      exact hold
    · rw [Table.get?_put_self, hm, length_canceledIn]
  -- a run that is left takes only its own entry away
  | left n r hr hs' =>
    subst hs'
    obtain ⟨r₀, hr₀, ⟨rfl, rfl⟩ | ⟨hne, rfl⟩⟩ := getElem?_modify_cases hr'
    · exact absurd rfl hφ'
    · have hold := hs m r' hr₀ hφ' hc'
      simp only [leave]
      split
      · rename_i hn
        rw [Table.get?_erase_of_ne]
        · exact hold
        · intro huri
          rw [huri, hn] at hold
          exact hne (Option.some.inj hold)
      · exact hold

theorem registered_of_course (h : Course (happen fs) (fresh debounce) ms s) : Registered s := by
  induction h with
  | nil => exact fun n r hr => absurd hr (by simp [fresh])
  | snoc _ hstep ih => exact (turn_of_happen hstep).registered ih

/-! ## Where runs come from -/

/-- A run stays one of its document. -/
theorem Turn.isRunOf (h : Turn s e s') (hn : IsRunOf s.runs n uri) : IsRunOf s'.runs n uri := by
  cases h with
  | same hruns _ => rw [hruns]; exact hn
  | moved m r φ _ _ hruns _ =>
    rw [hruns]
    exact (isRunOf_modify s.runs m (f := fun r => { r with phase := φ }) (fun _ => rfl) n uri).mpr
      hn
  | performed t hruns _ => rw [hruns]; exact (isRunOf_canceledIn _ _ n uri).mpr hn
  | started t timer _ _ _ hs' =>
    rw [hs'.runs]
    exact (runsKept_append _ _ rfl).uri n uri ((isRunOf_canceledIn _ _ n uri).mpr hn)
  | left m r _ hs' =>
    subst hs'
    exact (isRunOf_modify s.runs m (f := fun r => { r with canceled := true, phase := .ended })
      (fun _ => rfl) n uri).mpr hn

/-- Only timers that fire start runs. -/
theorem Turn.started_or_length (h : Turn s e s') : s'.runs.length = s.runs.length ∨
    ∃ t timer, e = .step (.fire t) ∧ s.timers[t]? = some timer ∧ s.pending.get? timer.uri = some t ∧
      Starts s s' timer := by
  cases h with
  | same hruns _ => exact .inl (by rw [hruns])
  | moved m r φ _ _ hruns _ => exact .inl (by rw [hruns, List.length_modify])
  | performed t hruns _ => exact .inl (by rw [hruns, length_canceledIn])
  | started t timer he ht hpending hs' => exact .inr ⟨t, timer, he, ht, hpending, hs'⟩
  | left m r _ hs' => exact .inl (by rw [hs', leave, List.length_modify])

/-- A start adds one run. -/
theorem Starts.length_runs (h : Starts s s' timer) : s'.runs.length = s.runs.length + 1 := by
  rw [h.runs, List.length_append, length_canceledIn, List.length_singleton]

/-- At the time `k` the timer of number `t` fires and starts the run of number `n`. -/
def StartsAt (fs : FileSystem) (ms : List (Moment Server Happening)) (t n k : Nat) : Prop :=
  ∃ s s', ms[k]? = some ⟨s, .step (.fire t)⟩ ∧ happen fs s (.step (.fire t)) = some s' ∧
    s.runs.length = n ∧ s'.runs.length = n + 1

theorem StartsAt.snoc (h : StartsAt fs ms t n k) (x : Moment Server Happening) :
    StartsAt fs (ms ++ [x]) t n k := by
  obtain ⟨s, s', hk, hrest⟩ := h
  exact ⟨s, s', getElem?_snoc_of_some x hk, hrest⟩

/-- A timer that starts a run was the one that is pending for its document. -/
theorem StartsAt.pending (h : StartsAt fs ms t n k) :
    ∃ s s' timer, ms[k]? = some ⟨s, .step (.fire t)⟩ ∧ happen fs s (.step (.fire t)) = some s' ∧
      s.runs.length = n ∧ s.timers[t]? = some timer ∧ s.pending.get? timer.uri = some t ∧
        Starts s s' timer := by
  obtain ⟨s, s', hk, hfire, hn, hn'⟩ := h
  rcases (turn_of_happen hfire).started_or_length with hsame | ⟨t', timer, he, ht, hpending, hs'⟩
  · omega
  · obtain rfl : t = t' := by simpa using he
    exact ⟨s, s', timer, hk, hfire, hn, ht, hpending, hs'⟩

/-- Every run was started by a timer of its document. -/
theorem started_of_course (h : Course (happen fs) (fresh debounce) ms s) :
    ∀ n, n < s.runs.length → ∃ t k timer, StartsAt fs ms t n k ∧ s.timers[t]? = some timer ∧
      IsRunOf s.runs n timer.uri := by
  induction h with
  | nil => exact fun n hn => absurd hn (by simp [fresh])
  | @snoc ms s s' e _ hstep ih =>
    intro n hn
    have hturn := turn_of_happen hstep
    have hticks := ticks_of_happen hstep
    -- the run was there before, or this turn has started it
    by_cases hold : n < s.runs.length
    · obtain ⟨t, k, timer, hstart, ht, hrun⟩ := ih n hold
      exact ⟨t, k, timer, hstart.snoc _, hticks.getElem? ht, hturn.isRunOf hrun⟩
    · rcases hturn.started_or_length with hsame | ⟨t, timer, rfl, ht, hpending, hs'⟩
      · omega
      · have hlength := hs'.length_runs
        obtain rfl : n = s.runs.length := by omega
        refine ⟨t, ms.length, timer, ⟨s, s', List.getElem?_concat_length, hstep, rfl, hlength⟩,
          hticks.getElem? ht, { uri := timer.uri, trigger := timer.trigger }, ?_, rfl⟩
        rw [hs'.runs, ← length_canceledIn s.runs (s.running.get? timer.uri)]
        exact List.getElem?_concat_length

/-! ## Timers that start no run -/

/-- The timer is there and is not pending for the document. -/
def Spent (s : Server) (t : Nat) (uri : String) : Prop :=
  t < s.timers.length ∧ s.pending.get? uri ≠ some t

/-- A timer that is spent stays so, since timers that are there do not become pending. -/
theorem Spent.kept (h : Spent s t uri) (hkept : TimersKept s s') : Spent s' t uri :=
  ⟨Nat.lt_of_lt_of_le h.1 hkept.kept.length_le, fun hp => h.2 (hkept.old uri t h.1 hp)⟩

/-- From the end of any moment on, timers are kept. -/
theorem timersKept_of_course (h : Course (happen fs) (fresh debounce) ms s) (hi : ms[i]? = some x) :
    ∃ s', happen fs x.state x.event = some s' ∧ TimersKept s' s := by
  induction h with
  | nil => exact absurd hi (by simp)
  | @snoc ms s s' e _ hstep ih =>
    rcases getElem?_snoc_cases hi with hold | ⟨-, rfl⟩
    · obtain ⟨s₁, hs₁, hkept⟩ := ih hold
      exact ⟨s₁, hs₁, hkept.trans (ticks_of_happen hstep).toTimersKept⟩
    · exact ⟨s', hstep, .refl s'⟩

/-- A timer that is spent by what happens at one time starts no run later. -/
theorem StartsAt.le_of_spent (h : Course (happen fs) (fresh debounce) ms s) (hi : ms[i]? = some x)
    (ht : x.state.timers[t]? = some timer)
    (hspent : ∀ s', happen fs x.state x.event = some s' → Spent s' t timer.uri)
    (hstart : StartsAt fs ms t n k) : k ≤ i := by
  obtain ⟨sk, -, timer', hk, -, -, ht', hpending, -⟩ := hstart.pending
  -- later on the timer would have to be pending, as the one that starts a run is
  refine Nat.le_of_not_lt fun hlt => ?_
  obtain ⟨s', hs', hkept⟩ := timersKept_of_course (h.take hk) (getElem?_take_of_lt hi hlt)
  obtain rfl : timer = timer' := by
    have hafter := hkept.getElem? ((ticks_of_happen hs').getElem? ht)
    exact Option.some.inj (hafter.symm.trans ht')
  exact ((hspent s' hs').kept hkept).2 hpending

/-- Whatever a task was done for, the server does it. -/
theorem happen_of_does (fs : FileSystem) {task : ServerTask} (h : Does task x) :
    ∃ ts, happen fs x.state x.event = some ({ x.state with tasks := ts }.perform task).1 := by
  rcases h with he | ⟨he, ts, hts⟩
  · exact ⟨x.state.tasks, by rw [he]; rfl⟩
  · refine ⟨ts, ?_⟩
    rw [he]
    simp [happen, next, step, hts]

/-- At this moment the timer of number `t` is there and loses its document: all timers are stopped,
    or linting the document is given up, or a timer is set for it. -/
def SetsAside (fs : FileSystem) (t : Nat) (x : Moment Server Happening) : Prop :=
  ∃ timer, x.state.timers[t]? = some timer ∧
    (Does .stopTimers x ∨ Does (.cancelLinting timer.uri) x ∨
      ∃ s' t' timer', happen fs x.state x.event = some s' ∧ x.state.timers.length ≤ t' ∧
        s'.timers[t']? = some timer' ∧ timer'.uri = timer.uri)

/-- A timer that loses its document is spent from then on. -/
theorem SetsAside.spent (h : SetsAside fs t x) : ∃ timer, x.state.timers[t]? = some timer ∧
    ∀ s', happen fs x.state x.event = some s' → Spent s' t timer.uri := by
  obtain ⟨timer, ht, hcases⟩ := h
  refine ⟨timer, ht, fun s' hs' => ?_⟩
  have hlt := (List.getElem?_eq_some_iff.mp ht).1
  refine ⟨Nat.lt_of_lt_of_le hlt (ticks_of_happen hs').kept.length_le, ?_⟩
  -- stopped, given up, or replaced by a later timer
  rcases hcases with hstop | hcancel | ⟨s'', t', timer', hs'', ht', htimer', huri⟩
  · obtain ⟨ts, hdone⟩ := happen_of_does fs hstop
    obtain rfl := Option.some.inj (hs'.symm.trans hdone)
    simp [perform, stopTimers]
  · obtain ⟨ts, hdone⟩ := happen_of_does fs hcancel
    obtain rfl := Option.some.inj (hs'.symm.trans hdone)
    obtain ⟨settings, running, heq, -⟩ := cancelLinting_spec { x.state with tasks := ts } timer.uri
    rw [perform, heq]
    simp
  · obtain rfl := Option.some.inj (hs'.symm.trans hs'')
    obtain ⟨t'', hle, hpending⟩ := (ticks_of_happen hs').new t' timer' ht' htimer'
    rw [← huri, hpending]
    simp
    omega

/-! ## Closing -/

/-- A server that is closed stays so. -/
theorem isClosed_of_happen (h : happen fs s e = some s') (hclosed : s.isClosed = true) :
    s'.isClosed = true := by
  cases e with
  | task t =>
    obtain rfl := Option.some.inj h
    exact (performs s t).closed (.inl hclosed)
  | step e =>
    cases effect_of_next h with
    | received m _ hidle hsame htasks => exact hsame.isClosed.trans hclosed
    | worked t ts ht => exact (performs { s with tasks := ts } t).closed (.inl hclosed)
    | fired t timer _ ht hpending hs' => exact hs'.isClosed.trans hclosed
    | pass n r p e _ _ hr hφ hallows hw hruns => exact hruns.isClosed.trans hclosed
    | watched e _ hs' => exact hs'.isClosed.trans hclosed
    | _ => exact hclosed

/-- A server is closed from the time on at which all work is cancelled. -/
theorem isClosed_of_course (h : Course (happen fs) (fresh debounce) ms s) (hi : ms[i]? = some x)
    (hx : Does .cancelWork x) : s.isClosed = true := by
  induction h with
  | nil => exact absurd hi (by simp)
  | @snoc ms s s' e _ hstep ih =>
    rcases getElem?_snoc_cases hi with hold | ⟨-, rfl⟩
    · exact isClosed_of_happen hstep (ih hold)
    · obtain ⟨ts, hdone⟩ := happen_of_does fs hx
      obtain rfl := Option.some.inj (hstep.symm.trans hdone)
      exact (performs _ _).closed (.inr rfl)

/-! ## At most one run -/

/-- The run goes on and is not cancelled. -/
def Live (s : Server) (n : Nat) (r : LintRun) : Prop :=
  s.runs[n]? = some r ∧ r.phase ≠ .ended ∧ s.isCanceled r = false

/-- **At most one run of a document is live.** Let tasks and steps interleave in any way, for any
    documents. A live run is the one that is registered for its document, so there is one of them at
    the most. Every run was started by a timer of its document, and no timer starts two. From the
    time on at which a later timer is set for the document, linting it is given up or all timers are
    stopped, a timer that was there starts none. And when all work has been cancelled, no run is
    live any more. -/
theorem single_live_run (h : Course (happen fs) (fresh debounce) ms s) :
    (∀ n r, Live s n r → s.running.get? r.uri = some n) ∧
    (∀ m n r r', Live s m r → Live s n r' → r.uri = r'.uri → m = n) ∧
    (∀ n, n < s.runs.length → ∃ t k timer, StartsAt fs ms t n k ∧ s.timers[t]? = some timer ∧
      IsRunOf s.runs n timer.uri) ∧
    (∀ t m n j k, StartsAt fs ms t m j → StartsAt fs ms t n k → j = k ∧ m = n) ∧
    (∀ t n i k x, ms[i]? = some x → SetsAside fs t x → StartsAt fs ms t n k → k ≤ i) ∧
    (∀ (i : Nat) x, ms[i]? = some x → Does .cancelWork x → ∀ n r, ¬ Live s n r) := by
  have hregistered : ∀ n r, Live s n r → s.running.get? r.uri = some n := by
    rintro n r ⟨hr, hφ, hcanceled⟩
    have hcanceled : r.canceled = false := by
      simpa [isCanceled] using (Bool.or_eq_false_iff.mp hcanceled).1
    exact registered_of_course h n r hr hφ hcanceled
  -- a timer that fires is no longer pending
  have honce : ∀ t m n j k, StartsAt fs ms t m j → StartsAt fs ms t n k → k ≤ j := by
    intro t m n j k hj hk
    obtain ⟨sj, sj', timer, hat, hfire, -, ht, -, hs'⟩ := hj.pending
    refine StartsAt.le_of_spent h hat ht (fun s' hs => ?_) hk
    obtain rfl := Option.some.inj (hs.symm.trans hfire)
    refine ⟨Nat.lt_of_lt_of_le (List.getElem?_eq_some_iff.mp ht).1
      (ticks_of_happen hfire).kept.length_le, ?_⟩
    rw [hs'.pending]
    simp
  refine ⟨hregistered, ?_, started_of_course h, ?_, ?_, ?_⟩
  · intro m n r r' hm hn huri
    have hm' := hregistered m r hm
    rw [huri, hregistered n r' hn] at hm'
    exact (Option.some.inj hm').symm
  · intro t m n j k hj hk
    obtain rfl : j = k := Nat.le_antisymm (honce t n m k j hk hj) (honce t m n j k hj hk)
    obtain ⟨s₁, -, h₁, -, hm, -⟩ := hj
    obtain ⟨s₂, -, h₂, -, hn, -⟩ := hk
    obtain rfl : s₁ = s₂ := congrArg Moment.state (Option.some.inj (h₁.symm.trans h₂))
    exact ⟨rfl, hm.symm.trans hn⟩
  · intro t n i k x hi hx hstart
    obtain ⟨timer, ht, hspent⟩ := hx.spent
    exact StartsAt.le_of_spent h hi ht hspent hstart
  · rintro i x hi hx n r ⟨-, -, hcanceled⟩
    rw [isCanceled, isClosed_of_course h hi hx, Bool.or_true] at hcanceled
    exact absurd hcanceled (by simp)

/-- A document is to be linted three times. The timer that was replaced fires all the same, and the
    first run, cancelled by the second, ends after it has started. -/
def lintedThrice : List Happening :=
  [.task (.schedule "a" .opened), .step (.fire 0), .task (.schedule "a" .changed),
    .task (.schedule "a" .saved), .step (.fire 1), .step (.fire 2), .step (.begin 0),
    .step (.report 0), .step (.leave 0)]

/-- The second run is the live one, and the timer that was replaced starts none. -/
theorem single_live_run_lintedThrice :
    ∃ s r, lintedThrice.foldlM (happen .empty) (fresh 0) = some s ∧ Live s 1 r ∧ r.uri = "a" ∧
      (∀ n r', Live s n r' → r'.uri = "a" → n = 1) ∧
      ∀ n k, StartsAt .empty (Course.moments (happen .empty) (fresh 0) lintedThrice) 1 n k →
        k ≤ 3 := by
  obtain ⟨s, r, hrun, hlive, huri⟩ : ∃ (s : Server) (r : LintRun),
      lintedThrice.foldlM (happen .empty) (fresh 0) = some s ∧ Live s 1 r ∧ r.uri = "a" :=
    ⟨_, ⟨"a", .saved, false, .ready⟩, rfl, ⟨rfl, by decide, rfl⟩, rfl⟩
  obtain ⟨-, hsingle, -, -, haside, -⟩ := single_live_run (Course.of_events lintedThrice hrun)
  refine ⟨s, r, hrun, hlive, huri,
    fun n r' hn hr' => hsingle n 1 r' r hn hlive (hr'.trans huri.symm), ?_⟩
  -- the timer of number 2 takes the place of that of number 1
  obtain ⟨x, hx, hreplaced⟩ : ∃ x,
      (Course.moments (happen .empty) (fresh 0) lintedThrice)[3]? = some x ∧
      SetsAside .empty 1 x :=
    ⟨_, rfl, ⟨"a", .changed⟩, rfl, .inr (.inr ⟨_, 2, ⟨"a", .saved⟩, rfl, by decide, rfl, rfl⟩)⟩
  exact fun n k hstart => haside 1 n 3 k x hx hreplaced hstart

end Server
end MarkupLint
