/-
  No change goes without a run.

  A document that is open, has no timer and no run going on has been linted as it is: the run that
  was started last has taken the document after its last change, has asked for its settings after
  the last change of the settings for all documents, and was not cancelled (`UpToDate`).

  The invariant behind it is that every open document is taken care of (`TakenCareOf`). Either a
  timer is set, or is going to be set by what is left to do, or the document is about to go, or all
  work is about to be cancelled (`Awaited`); or its last run follows the document (`Followed`):
  nothing has changed since the run has taken the document, or it has not taken it yet.
-/
import MarkupLint.Proofs.ServerCourse

namespace MarkupLint
namespace Server

variable {ms : List Instant} {x : Instant} {s s' : Server} {e : ServerEvent} {fs : FileSystem}
  {uri : String} {d : Document} {n p : Nat}

/-! ## What happens to a document -/

/-- At this moment the entry of the document in the table is changed. -/
def Changes (uri : String) (x : Instant) : Prop :=
  x.event = .work ∧ ∃ t ts, x.state.tasks = t :: ts ∧ t.Touches uri

/-- At this moment the settings for all documents are changed. -/
def Configures (x : Instant) : Prop :=
  x.event = .work ∧ ∃ config ts, x.state.tasks = .configure config :: ts

/-- At the time `b` the run of number `n` takes the document as it is, for the pass of number
    `p`. -/
def TakesAt (ms : List Instant) (n p : Nat) (uri : String) (d : Document) (b : Nat) : Prop :=
  ∃ s, ms[b]? = some ⟨s, .begin n⟩ ∧ s.workspace.passes.length = p ∧
    s.workspace.documents.get? uri = some d

/-- At the time `a` the run, in its pass over the document `d`, begins to look for settings. -/
def AsksAt (ms : List Instant) (n p : Nat) (d : Document) (a : Nat) : Prop :=
  ∃ s canceled q, ms[a]? = some ⟨s, .pass n (.ask p canceled)⟩ ∧ s.workspace.passes[p]? = some q ∧
    q.pass.document = d

/-- At the time `k` the run ends, and nobody has cancelled it. -/
def LeavesAt (ms : List Instant) (n k : Nat) : Prop :=
  ∃ s r, ms[k]? = some ⟨s, .leave n⟩ ∧ s.runs[n]? = some r ∧ r.canceled = false

/-- Neither the document nor the settings for all documents have changed since the time `b`. -/
structure Unchanged (ms : List Instant) (uri : String) (b : Nat) : Prop where
  document : AllBefore (Changes uri) ms b
  settings : AllBefore Configures ms b

/-- The run of number `n` is the last one of the document. It has taken the document at the time
    `b`, when it was the way it is now and the settings for all documents were the way they are now,
    has asked for its settings at the time `a`, and has come to its end at the time `k`. -/
structure UpToDate (ms : List Instant) (s : Server) (uri : String) (d : Document)
    (n p b a k : Nat) : Prop where
  run : IsRunOf s.runs n uri
  last : ∀ m, IsRunOf s.runs m uri → m ≤ n
  takes : TakesAt ms n p uri d b
  unchanged : Unchanged ms uri b
  asks : AsksAt ms n p d a
  after : b < a
  leaves : LeavesAt ms n k
  ends : a < k

/-- What a run has done stays done as the course goes on. -/
theorem TakesAt.snoc {b : Nat} (h : TakesAt ms n p uri d b) (x : Instant) :
    TakesAt (ms ++ [x]) n p uri d b := by
  obtain ⟨s, hb, hp, hd⟩ := h
  exact ⟨s, getElem?_snoc_of_some x hb, hp, hd⟩

theorem AsksAt.snoc {a : Nat} (h : AsksAt ms n p d a) (x : Instant) :
    AsksAt (ms ++ [x]) n p d a := by
  obtain ⟨s, canceled, q, ha, hq⟩ := h
  exact ⟨s, canceled, q, getElem?_snoc_of_some x ha, hq⟩

theorem AsksAt.lt_length {a : Nat} (h : AsksAt ms n p d a) : a < ms.length := by
  obtain ⟨s, canceled, q, ha, -⟩ := h
  exact lt_length_of_getElem? ha

theorem TakesAt.lt_length {b : Nat} (h : TakesAt ms n p uri d b) : b < ms.length := by
  obtain ⟨s, hb, -⟩ := h
  exact lt_length_of_getElem? hb

theorem LeavesAt.snoc {k : Nat} (h : LeavesAt ms n k) (x : Instant) : LeavesAt (ms ++ [x]) n k := by
  obtain ⟨s, r, hk, hr⟩ := h
  exact ⟨s, r, getElem?_snoc_of_some x hk, hr⟩

/-- A moment at which neither the document nor the settings for all documents change. -/
def Calm (uri : String) (x : Instant) : Prop := ¬ Changes uri x ∧ ¬ Configures x

theorem calm_of_not_work (h : x.event ≠ .work) : Calm uri x := ⟨fun hx => h hx.1, fun hx => h hx.1⟩

/-- A calm moment leaves document and settings as they were. -/
theorem Unchanged.snoc {b : Nat} (h : Unchanged ms uri b) (hx : Calm uri x) :
    Unchanged (ms ++ [x]) uri b :=
  ⟨h.document.snoc fun hc => absurd hc hx.1, h.settings.snoc fun hc => absurd hc hx.2⟩

theorem unchanged_now (hx : Calm uri x) : Unchanged (ms ++ [x]) uri ms.length :=
  Unchanged.snoc ⟨allBefore_now, allBefore_now⟩ hx

/-! ## The run that follows a document -/

/-- The run has taken the document as it is, and has asked for its settings. -/
def Linted (ms : List Instant) (uri : String) (d : Document) (n : Nat) : Prop :=
  ∃ p b a, TakesAt ms n p uri d b ∧ Unchanged ms uri b ∧ AsksAt ms n p d a ∧ b < a

/-- The pass of number `p` is the one for which the run of number `n` has taken the document as it
    is. -/
structure Passing (ms : List Instant) (passes : List ActivePass) (uri : String) (d : Document)
    (n p : Nat) : Prop where
  taken : ∃ b, TakesAt ms n p uri d b ∧ Unchanged ms uri b ∧
    ∀ q, passes[p]? = some q → q.call.isSome = true → ∃ a, AsksAt ms n p d a ∧ b < a
  document : ∀ q, passes[p]? = some q → q.pass.document = d
  called : ∀ q, passes[p]? = some q → q.pass.phase.lacksSettings = false → q.call.isSome = true

/-- How far the run of a document has come while nothing has changed since it took the document. -/
def Stage (ms : List Instant) (passes : List ActivePass) (uri : String) (d : Document) (n : Nat) :
    RunPhase → Prop
  | .ready => True
  | .passing p => Passing ms passes uri d n p
  | .reporting _ | .leaving => Linted ms uri d n
  | .ended => False

/-- A run is going on for the document, and nobody has cancelled it. -/
def Underway (ms : List Instant) (s : Server) (uri : String) (d : Document) (n : Nat) : Prop :=
  s.running.get? uri = some n ∧
    ∃ r, s.runs[n]? = some r ∧ r.canceled = false ∧ Stage ms s.workspace.passes uri d n r.phase

/-- The last run of the document is the one for the document as it is. -/
structure Followed (ms : List Instant) (s : Server) (uri : String) (d : Document) (n : Nat) :
    Prop where
  run : IsRunOf s.runs n uri
  last : ∀ m, IsRunOf s.runs m uri → m ≤ n
  state : Underway ms s uri d n ∨ ∃ p b a k, UpToDate ms s uri d n p b a k

/-- A document that was linted as it is stays so through a calm moment. -/
theorem Linted.snoc (h : Linted ms uri d n) (hx : Calm uri x) : Linted (ms ++ [x]) uri d n := by
  obtain ⟨p, b, a, hb, hunchanged, ha, hba⟩ := h
  exact ⟨p, b, a, hb.snoc x, hunchanged.snoc hx, ha.snoc x, hba⟩

/-- A document that is up to date stays so through a calm moment, if its runs are the same. -/
theorem UpToDate.snoc {b a k : Nat} (h : UpToDate ms s uri d n p b a k) (hx : Calm uri x)
    (hruns : ∀ m, IsRunOf s'.runs m uri ↔ IsRunOf s.runs m uri) :
    UpToDate (ms ++ [x]) s' uri d n p b a k :=
  ⟨(hruns n).mpr h.run, fun m hm => h.last m ((hruns m).mp hm), h.takes.snoc x, h.unchanged.snoc hx,
    h.asks.snoc x, h.after, h.leaves.snoc x, h.ends⟩

/-- A step of the pass leaves the run in its pass, and if the pass asks for settings, the run
    does. -/
theorem Passing.step (h : Passing ms s.workspace.passes uri d n p) {q : ActivePass}
    {e : WorkspaceEvent} {out : List PassOutput} (hq : s.workspace.passes[p]? = some q)
    (hw : Workspace.Effect s.workspace e s'.workspace out) :
    Passing (ms ++ [⟨s, .pass n e⟩]) s'.workspace.passes uri d n p := by
  have hcalm : Calm uri (⟨s, .pass n e⟩ : Instant) := calm_of_not_work nofun
  obtain ⟨b, hb, hunchanged, hasked⟩ := h.taken
  refine ⟨⟨b, hb.snoc _, hunchanged.snoc hcalm, fun q' hq' hcall => ?_⟩, fun q' hq' => ?_,
    fun q' hq' hphase => ?_⟩
  · -- the pass had its call before, or gets it at this moment
    rcases hw.call_cases hq hq' with heq | ⟨canceled, rfl, -⟩
    · obtain ⟨a, ha, hba⟩ := hasked q hq (by rw [← heq]; exact hcall)
      exact ⟨a, ha.snoc _, hba⟩
    · exact ⟨ms.length, ⟨s, canceled, q, List.getElem?_concat_length, hq, h.document q hq⟩,
        hb.lt_length⟩
  · rcases hw.pass_cases hq with ⟨q₁, hq₁, hsame, -⟩ | ⟨pe, p', hq₁, -, hp⟩
    · obtain rfl := Option.some.inj (hq'.symm.trans hq₁)
      rw [hsame]
      exact h.document q hq
    · obtain rfl := Option.some.inj (hq'.symm.trans hq₁)
      exact hp.document_eq.trans (h.document q hq)
  · exact hw.called hq hq' (h.called q hq) hphase

/-- A pass that has ended leaves a document that was linted. -/
theorem Passing.linted {passes : List ActivePass} (h : Passing ms passes uri d n p) {q : ActivePass}
    {failure : Option Failure} (hq : passes[p]? = some q) (hend : q.pass.phase = .ended failure) :
    Linted ms uri d n := by
  obtain ⟨b, hb, hunchanged, hasked⟩ := h.taken
  obtain ⟨a, ha, hba⟩ := hasked q hq (h.called q hq (by rw [hend]; rfl))
  exact ⟨p, b, a, hb, hunchanged, ha, hba⟩

/-- Somebody else's step leaves a run where it stands. -/
theorem Stage.other {φ : RunPhase} {passes passes' : List ActivePass}
    (h : Stage ms passes uri d n φ) (hx : Calm uri x)
    (hpasses : ∀ p, φ = .passing p → passes'[p]? = passes[p]?) :
    Stage (ms ++ [x]) passes' uri d n φ := by
  cases φ with
  | ready => trivial
  -- the pass of the run is the same, so what is said of it stays true
  | passing p =>
    obtain ⟨b, hb, hunchanged, hasked⟩ := h.taken
    have hp := hpasses p rfl
    refine ⟨⟨b, hb.snoc x, hunchanged.snoc hx, fun q hq hcall => ?_⟩, ?_, ?_⟩
    · obtain ⟨a, ha, hba⟩ := hasked q (by rw [← hp]; exact hq) hcall
      exact ⟨a, ha.snoc x, hba⟩
    · rw [hp]
      exact h.document
    · rw [hp]
      exact h.called
  | reporting f => exact Linted.snoc h hx
  | leaving => exact Linted.snoc h hx
  | ended => exact h

/-- Somebody else's step leaves the run that follows a document alone. -/
theorem Followed.other (h : Followed ms s uri d n) (hx : Calm uri x)
    (hruns : ∀ m, IsRunOf s'.runs m uri ↔ IsRunOf s.runs m uri) (hrun : s'.runs[n]? = s.runs[n]?)
    (hrunning : s.running.get? uri = some n → s'.running.get? uri = some n)
    (hpasses : ∀ p, InPass s.runs n p → s'.workspace.passes[p]? = s.workspace.passes[p]?) :
    Followed (ms ++ [x]) s' uri d n := by
  refine ⟨(hruns n).mpr h.run, fun m hm => h.last m ((hruns m).mp hm), ?_⟩
  rcases h.state with ⟨hreg, r, hr, hcanceled, hstage⟩ | ⟨p, b, a, k, hdone⟩
  · refine .inl ⟨hrunning hreg, r, hrun.trans hr, hcanceled, ?_⟩
    exact hstage.other hx fun p hp => hpasses p ⟨r, hr, hp⟩
  · exact .inr ⟨p, b, a, k, hdone.snoc hx hruns⟩

/-- A step of the run that follows the document: it is where its phase says, or it had ended. -/
theorem Followed.own (h : Followed ms s uri d n) (hx : Calm uri x)
    (hruns : ∀ m, IsRunOf s'.runs m uri ↔ IsRunOf s.runs m uri)
    (hstep : ∀ r, s.running.get? uri = some n → s.runs[n]? = some r → r.canceled = false →
      Stage ms s.workspace.passes uri d n r.phase →
      Underway (ms ++ [x]) s' uri d n ∨ ∃ p b a k, UpToDate (ms ++ [x]) s' uri d n p b a k) :
    Followed (ms ++ [x]) s' uri d n := by
  refine ⟨(hruns n).mpr h.run, fun m hm => h.last m ((hruns m).mp hm), ?_⟩
  rcases h.state with ⟨hreg, r, hr, hcanceled, hstage⟩ | ⟨p, b, a, k, hdone⟩
  · exact hstep r hreg hr hcanceled hstage
  · exact .inr ⟨p, b, a, k, hdone.snoc hx hruns⟩

/-! ## Steps of runs -/

/-- A run that moves on stays one of its document. -/
theorem isRunOf_moveRun (s : Server) (m : Nat) (φ : RunPhase) (k : Nat) (uri : String) :
    IsRunOf (s.moveRun m φ).runs k uri ↔ IsRunOf s.runs k uri := by
  refine isRunOf_modify s.runs m ?_ k uri
  exact fun _ => rfl

theorem getElem?_moveRun_self {r : LintRun} (hr : s.runs[n]? = some r) (φ : RunPhase) :
    (s.moveRun n φ).runs[n]? = some { r with phase := φ } := by
  show (s.runs.modify n _)[n]? = _
  rw [List.getElem?_modify_eq, hr]
  rfl

/-- A run moves on. If it is the one that follows the document, it has come as far as it says. -/
theorem Followed.moveRun (h : Followed ms s uri d n) (hx : Calm uri x) (m : Nat) (φ : RunPhase)
    (hstage : ∀ r, m = n → s.runs[n]? = some r → Stage ms s.workspace.passes uri d n r.phase →
      Stage (ms ++ [x]) s.workspace.passes uri d n φ) :
    Followed (ms ++ [x]) (s.moveRun m φ) uri d n := by
  by_cases hm : m = n
  · subst hm
    refine h.own hx (isRunOf_moveRun s m φ · uri) fun r hreg hr hcanceled hst => ?_
    exact .inl ⟨hreg, _, getElem?_moveRun_self hr φ, hcanceled, hstage r rfl hr hst⟩
  · exact h.other hx (isRunOf_moveRun s m φ · uri) (List.getElem?_modify_ne _ _ hm)
      (fun hreg => hreg) (fun _ _ => rfl)

/-- A run begins a pass. The one that follows the document takes it as it is. -/
theorem Followed.begun (h : Followed ms s uri d n) (hs : Ordered s)
    (hd : s.workspace.documents.get? uri = some d) {m : Nat} {r : LintRun} {d' : Document}
    (hr : s.runs[m]? = some r) (hd' : s.workspace.documents.get? r.uri = some d') :
    Followed (ms ++ [⟨s, .begin m⟩])
      (Server.moveRun
        { s with
          workspace := { s.workspace with
            passes := s.workspace.passes ++ [{ pass := ⟨d', .begun⟩ }] } }
        m (.passing s.workspace.passes.length)) uri d n := by
  have hcalm : Calm uri (⟨s, .begin m⟩ : Instant) := calm_of_not_work nofun
  by_cases hm : m = n
  · subst hm
    refine h.own hcalm (isRunOf_moveRun _ m _ · uri) fun r' hreg hr' hcanceled _ =>
      .inl ⟨hreg, _, getElem?_moveRun_self hr' _, hcanceled, ?_⟩
    -- the document that the run takes is the open one
    obtain rfl : d = d' := by
      obtain ⟨r'', hr'', huri⟩ := h.run
      obtain rfl := Option.some.inj (hr.symm.trans hr'')
      rw [huri, hd] at hd'
      exact Option.some.inj hd'
    have hnew : ∀ q, (s.workspace.passes ++ [{ pass := ⟨d, .begun⟩ }])[s.workspace.passes.length]? =
        some q → q = { pass := ⟨d, .begun⟩ } :=
      fun q hq => (Option.some.inj (List.getElem?_concat_length.symm.trans hq)).symm
    refine ⟨⟨ms.length, ⟨s, List.getElem?_concat_length, rfl, hd⟩, unchanged_now hcalm,
      fun q hq hcall => ?_⟩, fun q hq => ?_, fun q hq hphase => ?_⟩
    · rw [hnew q hq] at hcall
      exact absurd hcall (by simp)
    · rw [hnew q hq]
    · rw [hnew q hq] at hphase
      exact absurd hphase (by simp [PassPhase.lacksSettings])
  · exact h.other hcalm (isRunOf_moveRun _ m _ · uri) (List.getElem?_modify_ne _ _ hm)
      (fun hreg => hreg) (fun p hp => List.getElem?_append_left (hs.pass n p hp))

/-- A pass takes a step. -/
theorem Followed.pass (h : Followed ms s uri d n) (hs : Ordered s) {m : Nat} {r : LintRun}
    {e : WorkspaceEvent} {out : List PassOutput} (hr : s.runs[m]? = some r)
    (hφ : r.phase = .passing p) (hallows : s.allows r p e = true)
    (hw : Workspace.Effect s.workspace e s'.workspace out) (hruns : SameRuns s s') :
    Followed (ms ++ [⟨s, .pass m e⟩]) s' uri d n := by
  have hcalm : Calm uri (⟨s, .pass m e⟩ : Instant) := calm_of_not_work nofun
  have huris : ∀ k, IsRunOf s'.runs k uri ↔ IsRunOf s.runs k uri := fun k => by rw [hruns.runs]
  by_cases hm : m = n
  · subst hm
    refine h.own hcalm huris fun r' hreg hr' hcanceled hst => ?_
    obtain rfl : r = r' := Option.some.inj (hr.symm.trans hr')
    refine .inl ⟨by rw [hruns.running]; exact hreg, r, by rw [hruns.runs]; exact hr, hcanceled, ?_⟩
    rw [hφ] at hst ⊢
    have hp := hs.pass m p ⟨r, hr, hφ⟩
    exact Passing.step hst (List.getElem?_eq_getElem hp) hw
  · -- another run has another pass
    refine h.other hcalm huris (by rw [hruns.runs]) (fun hreg => by rw [hruns.running]; exact hreg)
      fun q hq => passes_of_allows hallows hw fun hpq => hm ?_
    exact hs.single m n p ⟨r, hr, hφ⟩ (hpq ▸ hq)

/-- A run ends. When the one that follows the document does, the document is up to date. -/
theorem Followed.left (h : Followed ms s uri d n) {m : Nat} {r : LintRun} (hr : s.runs[m]? = some r)
    (hφ : r.phase = .leaving) : Followed (ms ++ [⟨s, .leave m⟩]) (s.leave m r.uri) uri d n := by
  have hcalm : Calm uri (⟨s, .leave m⟩ : Instant) := calm_of_not_work nofun
  have hruns : ∀ k, IsRunOf (s.leave m r.uri).runs k uri ↔ IsRunOf s.runs k uri := by
    intro k
    refine isRunOf_modify s.runs m ?_ k uri
    exact fun _ => rfl
  by_cases hm : m = n
  · subst hm
    refine h.own hcalm hruns fun r' hreg hr' hcanceled hst => .inr ?_
    obtain rfl : r = r' := Option.some.inj (hr.symm.trans hr')
    rw [hφ] at hst
    obtain ⟨p, b, a, hb, hunchanged, ha, hba⟩ := hst
    exact ⟨p, b, a, ms.length, (hruns m).mpr h.run, fun k hk => h.last k ((hruns k).mp hk),
      hb.snoc _, hunchanged.snoc hcalm, ha.snoc _, hba,
      ⟨s, r, List.getElem?_concat_length, hr, hcanceled⟩, ha.lt_length⟩
  · refine h.other hcalm hruns (List.getElem?_modify_ne _ _ hm) (fun hreg => ?_) (fun _ _ => rfl)
    show (if s.running.get? r.uri = some m then s.running.erase r.uri else s.running).get? uri =
        some n
    split
    · -- the place of the run that ends is not the one of the run that follows the document
      rename_i hold
      have hne : uri ≠ r.uri := by
        intro heq
        rw [← heq, hreg] at hold
        exact hm (Option.some.inj hold).symm
      rw [Table.get?_erase_of_ne _ hne]
      exact hreg
    · exact hreg

/-- The timer of another document fires. -/
theorem Followed.fired (h : Followed ms s uri d n) (hs : Ordered s) {t : Nat} {timer : LintTimer}
    (hs' : Starts s s' timer) (hne : timer.uri ≠ uri) :
    Followed (ms ++ [⟨s, .fire t⟩]) s' uri d n := by
  have hcanceled := isRunOf_canceledIn s.runs (s.running.get? timer.uri)
  refine h.other (calm_of_not_work nofun) (fun m => ⟨fun hm => ?_, fun hm => ?_⟩) ?_
    (fun hreg => ?_) fun p _ => by rw [hs'.passes]
  · obtain ⟨r, hr, hu⟩ := hm
    rw [hs'.runs, List.getElem?_append] at hr
    split at hr
    · exact (hcanceled m uri).mp ⟨r, hr, hu⟩
    · rw [List.mem_singleton.mp (List.mem_of_getElem? hr)] at hu
      exact absurd hu hne
  · rw [hs'.runs]
    exact (runsKept_append _ _ rfl).uri m uri ((hcanceled m uri).mpr hm)
  · obtain ⟨r, hr, -⟩ := h.run
    have hlt : n < (canceledIn s.runs (s.running.get? timer.uri)).length := by
      rw [length_canceledIn]
      exact (List.getElem?_eq_some_iff.mp hr).1
    rw [hs'.runs, List.getElem?_append_left hlt]
    exact hs.getElem?_canceledIn h.run hne
  · rw [hs'.running, Table.get?_put_of_ne _ _ fun heq => hne heq.symm]
    exact hreg

/-- The run that a timer starts follows the document. -/
theorem followed_of_starts {t : Nat} {timer : LintTimer} (hs' : Starts s s' timer) :
    Followed (ms ++ [⟨s, .fire t⟩]) s' timer.uri d s.runs.length := by
  have hlen := length_canceledIn s.runs (s.running.get? timer.uri)
  have hnew : s'.runs[s.runs.length]? = some { uri := timer.uri, trigger := timer.trigger } := by
    rw [hs'.runs, ← hlen]
    exact List.getElem?_concat_length
  refine ⟨⟨_, hnew, rfl⟩, fun m hm => ?_, .inl ⟨?_, _, hnew, rfl, trivial⟩⟩
  · obtain ⟨r, hr, -⟩ := hm
    have hlt := (List.getElem?_eq_some_iff.mp hr).1
    rw [hs'.runs, List.length_append, hlen, List.length_singleton] at hlt
    omega
  · rw [hs'.running]
    exact Table.get?_put_self _ _ _

/-! ## Documents that are taken care of -/

/-- A timer of the document is set or is going to be, or the document is about to go, or all work is
    cancelled or about to be. -/
inductive Awaited (s : Server) (uri : String) : Prop where
  | pending (h : (s.pending.get? uri).isSome = true)
  | scheduling (h : WillSchedule uri s.tasks)
  | dropping (h : .dropDocument uri ∈ s.tasks)
  | closed (h : s.isClosed = true)
  | closing (h : .cancelWork ∈ s.tasks)

/-- If the document is open, a timer is awaited or its last run is the one for the document as it
    is. -/
def TakenCareOf (ms : List Instant) (s : Server) (uri : String) : Prop :=
  ∀ d, s.workspace.documents.get? uri = some d → Awaited s uri ∨ ∃ n, Followed ms s uri d n

/-- A step that does no task takes nothing of it away, unless it is the timer of the document. -/
theorem Awaited.other (h : Awaited s uri)
    (hpending : (s.pending.get? uri).isSome = true → (s'.pending.get? uri).isSome = true)
    (hclosed : s'.isClosed = s.isClosed) (htasks : s'.tasks = s.tasks) : Awaited s' uri := by
  cases h with
  | pending h => exact .pending (hpending h)
  | scheduling h => exact .scheduling (by rw [htasks]; exact h)
  | dropping h => exact .dropping (by rw [htasks]; exact h)
  | closed h => exact .closed (by rw [hclosed]; exact h)
  | closing h => exact .closing (by rw [htasks]; exact h)

section Tasks

variable {t : ServerTask} {ts : List ServerTask}

/-- A task on a document, or on the settings for all documents, is followed by a timer, or the
    document goes. -/
theorem awaited_of_followedBy (hp : Performs { s with tasks := ts } s' t)
    (hfollowed : t.FollowedBy s.workspace.documents ts)
    (hd : s'.workspace.documents.get? uri = some d)
    (ht : t.Touches uri ∨ (∃ config, t = .configure config) ∨ t = .cancelLinting uri) :
    Awaited s' uri := by
  have htasks : s'.tasks = ts := hp.tasks
  rcases ht with htouches | ⟨config, rfl⟩ | rfl
  · cases t with
    | openDocument u _ _ _ =>
      obtain rfl : u = uri := htouches
      exact .scheduling (by rw [htasks]; exact hfollowed.1)
    | changeDocument u _ _ =>
      obtain rfl : u = uri := htouches
      exact .scheduling (by rw [htasks]; exact hfollowed.1)
    | dropDocument u =>
      obtain rfl : u = uri := htouches
      rw [hp.documents, ServerTask.rewrite, Documents.closed, Table.get?_erase_self] at hd
      exact absurd hd (by simp)
    | _ => exact htouches.elim
  · rw [hp.documents] at hd
    exact .scheduling (by rw [htasks]; exact hfollowed uri d hd)
  · exact .dropping (by rw [htasks]; exact hfollowed)

/-- What is awaited is awaited still after a task, or has come. -/
theorem Awaited.worked (h : Awaited s uri) (htasks : s.tasks = t :: ts)
    (hp : Performs { s with tasks := ts } s' t) (hfollowed : t.FollowedBy s.workspace.documents ts)
    (hd : s'.workspace.documents.get? uri = some d) : Awaited s' uri := by
  have htasks' : s'.tasks = ts := hp.tasks
  cases h with
  -- only the two tasks that stop timers take the timer away, and something follows each of them
  | pending h =>
    by_cases hcancel : t = .cancelLinting uri
    · exact awaited_of_followedBy hp hfollowed hd (.inr (.inr hcancel))
    · by_cases hstop : t = .stopTimers
      · subst hstop
        exact .closing (by rw [htasks']; exact hfollowed)
      · exact .pending (hp.pending uri hcancel hstop h)
  -- the timer is set now, or later
  | scheduling h =>
    obtain ⟨trigger, h⟩ := h
    rw [htasks] at h
    rcases List.mem_cons.mp h with hnow | hlater
    · exact .pending (hp.scheduled uri trigger hnow.symm)
    · exact .scheduling ⟨trigger, by rw [htasks']; exact hlater⟩
  | dropping h =>
    rw [htasks] at h
    rcases List.mem_cons.mp h with rfl | hlater
    · exact awaited_of_followedBy hp hfollowed hd (.inl rfl)
    · exact .dropping (by rw [htasks']; exact hlater)
  | closed h => exact .closed (hp.closed (.inl h))
  | closing h =>
    rw [htasks] at h
    rcases List.mem_cons.mp h with hnow | hlater
    · exact .closed (hp.closed (.inr hnow.symm))
    · exact .closing (by rw [htasks']; exact hlater)

/-- A task that is none of those leaves the run that follows the document alone. -/
theorem Followed.worked (h : Followed ms s uri d n) (hs : Ordered s) (htasks : s.tasks = t :: ts)
    (hp : Performs { s with tasks := ts } s' t)
    (ht : ¬ (t.Touches uri ∨ (∃ config, t = .configure config) ∨ t = .cancelLinting uri)) :
    Followed (ms ++ [⟨s, .work⟩]) s' uri d n := by
  have hcalm : Calm uri (⟨s, .work⟩ : Instant) := by
    constructor
    · rintro ⟨-, t', ts', heq, htouches⟩
      obtain ⟨rfl, -⟩ := List.cons.inj (htasks.symm.trans heq)
      exact ht (.inl htouches)
    · rintro ⟨-, config, ts', heq⟩
      obtain ⟨rfl, -⟩ := List.cons.inj (htasks.symm.trans heq)
      exact ht (.inr (.inl ⟨config, rfl⟩))
  have hcancel : t ≠ .cancelLinting uri := fun heq => ht (.inr (.inr heq))
  refine h.other hcalm (fun m => ?_) ?_ (fun hreg => (hp.running uri hcancel).trans hreg)
    fun p _ => by rw [hp.passes]
  · rw [hp.runs]
    exact isRunOf_canceledIn s.runs _ m uri
  · rw [hp.runs]
    cases t with
    | cancelLinting v => exact hs.getElem?_canceledIn h.run fun heq => hcancel (by rw [heq])
    | _ => rfl

/-- A task keeps the document taken care of: it is one of those that a timer follows, or none that
    matters. -/
theorem TakenCareOf.worked (h : TakenCareOf ms s uri) (hs : Ordered s)
    (hok : TasksOK s.workspace.documents s.tasks) (htasks : s.tasks = t :: ts)
    (hp : Performs { s with tasks := ts } s' t) : TakenCareOf (ms ++ [⟨s, .work⟩]) s' uri := by
  intro d hd
  have hfollowed : t.FollowedBy s.workspace.documents ts := by
    rw [htasks] at hok
    cases hok with
    | cons hfollowed _ => exact hfollowed
  -- by whether the task is one after which the last run no longer counts
  by_cases ht : t.Touches uri ∨ (∃ config, t = .configure config) ∨ t = .cancelLinting uri
  · exact .inl (awaited_of_followedBy hp hfollowed hd ht)
  · have hsame : s.workspace.documents.get? uri = some d := by
      rw [← hd, hp.documents]
      exact (ServerTask.get?_rewrite_of_not_touches _ fun htouches => ht (.inl htouches)).symm
    rcases h d hsame with hawaited | ⟨n, hn⟩
    · exact .inl (hawaited.worked htasks hp hfollowed hd)
    · exact .inr ⟨n, hn.worked hs htasks hp ht⟩

end Tasks

/-- A step other than a task and the timer of the document. -/
theorem TakenCareOf.other (h : TakenCareOf ms s uri)
    (hdocuments : s'.workspace.documents = s.workspace.documents)
    (hpending : (s.pending.get? uri).isSome = true → (s'.pending.get? uri).isSome = true)
    (hclosed : s'.isClosed = s.isClosed) (htasks : s'.tasks = s.tasks)
    (hfollowed : ∀ d n, s.workspace.documents.get? uri = some d → Followed ms s uri d n →
      Followed (ms ++ [x]) s' uri d n) : TakenCareOf (ms ++ [x]) s' uri := by
  intro d hd
  rw [hdocuments] at hd
  rcases h d hd with hawaited | ⟨n, hn⟩
  · exact .inl (hawaited.other hpending hclosed htasks)
  · exact .inr ⟨n, hfollowed d n hd hn⟩

/-- **What one step preserves**: every document is taken care of. -/
theorem TakenCareOf.step (h : TakenCareOf ms s uri) (hs : Ordered s)
    (hok : TasksOK s.workspace.documents s.tasks) (heff : Effect s e s') :
    TakenCareOf (ms ++ [⟨s, e⟩]) s' uri := by
  -- steps that leave runs and passes alone leave the run that follows the document
  have hsame : ∀ {s' : Server} {x : Instant}, Calm uri x → s'.runs = s.runs →
      s'.running = s.running → s'.workspace.passes = s.workspace.passes →
      ∀ d n, s.workspace.documents.get? uri = some d → Followed ms s uri d n →
        Followed (ms ++ [x]) s' uri d n := by
    intro s' x hx hruns hrunning hpasses d n _ hn
    exact hn.other hx (fun m => by rw [hruns]) (by rw [hruns])
      (fun hreg => by rw [hrunning]; exact hreg) fun p _ => by rw [hpasses]
  cases heff with
  | received m s' hidle hsamework htasks =>
    intro d hd
    rw [hsamework.documents] at hd
    rcases h d hd with hawaited | ⟨n, hn⟩
    · -- nothing was left to do
      refine .inl ?_
      cases hawaited with
      | pending h => exact .pending (by rw [hsamework.pending]; exact h)
      | scheduling h => rw [hidle] at h; obtain ⟨_, h⟩ := h; exact absurd h (by simp)
      | dropping h => rw [hidle] at h; exact absurd h (by simp)
      | closed h => exact .closed (by rw [hsamework.isClosed]; exact h)
      | closing h => rw [hidle] at h; exact absurd h (by simp)
    · exact .inr ⟨n, hsame (x := ⟨s, .receive m⟩) (calm_of_not_work nofun) hsamework.runs
        hsamework.running hsamework.passes d n hd hn⟩
  | worked t ts ht => exact h.worked hs hok ht (performs _ t)
  | hungUp => exact h.other rfl (fun h => h) rfl rfl (hsame (calm_of_not_work nofun) rfl rfl rfl)
  | late t => exact h.other rfl (fun h => h) rfl rfl (hsame (calm_of_not_work nofun) rfl rfl rfl)
  -- the timer of the document hands over to the run that it starts
  | fired t timer s' ht hpending hs' =>
    by_cases hu : timer.uri = uri
    · subst hu
      exact fun d hd => .inr ⟨s.runs.length, followed_of_starts hs'⟩
    · refine h.other hs'.documents (fun h => ?_) hs'.isClosed hs'.tasks
        fun d n _ hn => hn.fired hs hs' hu
      rw [hs'.pending, Table.get?_erase_of_ne _ fun heq => hu heq.symm]
      exact h
  | begun m r d' hr hφ hd' =>
    exact h.other rfl (fun h => h) rfl rfl fun d n hd hn => hn.begun hs hd hr hd'
  | notFound m r hr hφ hd' =>
    refine h.other rfl (fun h => h) rfl rfl fun d n hd hn =>
      hn.moveRun (x := ⟨s, .begin m⟩) (calm_of_not_work nofun) m _ fun r' hm hr' _ => ?_
    -- the document of the run that follows it is there
    subst hm
    obtain ⟨r'', hr'', huri⟩ := hn.run
    obtain rfl := Option.some.inj (hr.symm.trans hr'')
    rw [huri, hd] at hd'
    exact absurd hd' (by simp)
  | pass m r p e out s' hr hφ hallows hw hruns =>
    refine h.other (documents_of_allows hallows hw) (fun h => ?_) hruns.isClosed hruns.tasks
      fun d n _ hn => hn.pass hs hr hφ hallows hw hruns
    rw [hruns.pending]
    exact h
  -- the pass of the run has ended, so the document was linted as it is
  | passed m r p q failure hr hφ hq hend =>
    refine h.other rfl (fun h => h) rfl rfl fun d n _ hn =>
      hn.moveRun (x := ⟨s, .passed m⟩) (calm_of_not_work nofun) m _ fun r' hm hr' hst => ?_
    subst hm
    obtain rfl := Option.some.inj (hr.symm.trans hr')
    rw [hφ] at hst
    exact Linted.snoc (Passing.linted hst hq hend) (calm_of_not_work nofun)
  | reported m r failure hr hφ =>
    refine h.other rfl (fun h => h) rfl rfl fun d n _ hn =>
      hn.moveRun (x := ⟨s, .report m⟩) (calm_of_not_work nofun) m _ fun r' hm hr' hst => ?_
    subst hm
    obtain rfl := Option.some.inj (hr.symm.trans hr')
    rw [hφ] at hst
    exact Linted.snoc hst (calm_of_not_work nofun)
  | left m r hr hφ => exact h.other rfl (fun h => h) rfl rfl fun d n _ hn => hn.left hr hφ
  | watched e s' hs' =>
    exact h.other (by rw [hs'.workspace]) (hs'.pending uri) hs'.isClosed hs'.tasks
      (hsame (calm_of_not_work nofun) hs'.runs hs'.running (by rw [hs'.workspace]))

/-! ## Whole courses -/

/-- What a run preserves: every document is taken care of. -/
theorem takenCareOf_of_course {debounce : Int} (h : Course (next fs) (fresh debounce) ms s)
    (uri : String) : TakenCareOf ms s uri := by
  induction h with
  | nil => exact fun d hd => absurd hd (by simp [fresh])
  | snoc h hstep ih =>
    exact ih.step (ordered_of_course h) (tasksOK_of_course h) (effect_of_next hstep)

/-- **No change goes without a run.** Let messages, timers, runs and the watcher interleave in any
    way. When a message is done with, work was not cancelled altogether, and a document is open, has
    no timer and no run going on, then the last run of this document has taken the document as it
    now is after its last change, has begun to look for its settings after the last change of the
    settings for all documents, and has come to its end without having been cancelled. -/
theorem last_run_upToDate {debounce : Int} (h : Course (next fs) (fresh debounce) ms s)
    (hidle : s.tasks = []) (hopen : s.isClosed = false)
    (hd : s.workspace.documents.get? uri = some d) (hpending : s.pending.get? uri = none)
    (hrunning : s.running.get? uri = none) : ∃ n p b a k, UpToDate ms s uri d n p b a k := by
  -- nothing is awaited any more, and the run that follows the document is not going on
  rcases takenCareOf_of_course h uri d hd with hawaited | ⟨n, hn⟩
  · cases hawaited with
    | pending h => rw [hpending] at h; exact absurd h (by simp)
    | scheduling h => rw [hidle] at h; obtain ⟨_, h⟩ := h; exact absurd h (by simp)
    | dropping h => rw [hidle] at h; exact absurd h (by simp)
    | closed h => rw [hopen] at h; exact absurd h (by simp)
    | closing h => rw [hidle] at h; exact absurd h (by simp)
  · rcases hn.state with ⟨hreg, -⟩ | ⟨p, b, a, k, hdone⟩
    · rw [hrunning] at hreg
      exact absurd hreg (by simp)
    · exact ⟨n, p, b, a, k, hdone⟩

/-- A document is changed while its first run is about to show what it has found. The old timer
    fires once more before the new one is set, and the first run, cancelled by the second, ends
    after it. -/
def changedWhileLinted : List ServerEvent :=
  [opening "a" "1" 1, .work, .work, .fire 0] ++ judging 0 0 0 ++
    [changing "a" "2" 2, .work, .fire 0, .work, .fire 1] ++ judging 1 1 1 ++ concluding 1 1 ++
      concluding 0 0

/-- The second run is the last one, and it has taken the second version. -/
theorem last_run_upToDate_changedWhileLinted :
    ∃ s d n p b a k, d.version = 2 ∧ s.workspace.documents.get? "a" = some d ∧
      UpToDate (Course.moments (next .empty) (fresh 0) changedWhileLinted) s "a" d n p b a k := by
  obtain ⟨s, d, hrun, hversion, hidle, hopen, hd, hpending, hrunning⟩ :
      ∃ (s : Server) (d : Document), changedWhileLinted.foldlM (next .empty) (fresh 0) = some s ∧
        d.version = 2 ∧ s.tasks = [] ∧ s.isClosed = false ∧
        s.workspace.documents.get? "a" = some d ∧ s.pending.get? "a" = none ∧
        s.running.get? "a" = none :=
    ⟨_, _, rfl, rfl, rfl, rfl, rfl, rfl, rfl⟩
  obtain ⟨n, p, b, a, k, h⟩ :=
    last_run_upToDate (Course.of_events changedWhileLinted hrun) hidle hopen hd hpending hrunning
  exact ⟨s, d, n, p, b, a, k, hversion, hd, h⟩

end Server
end MarkupLint
