/-
  In which order diagnostics are shown.

  A pass checks that its document is at its version, and shows what it has found in a step of its
  own. Between the two the document may change and another pass may come and go (`Overtaken`). This
  is a way in which diagnostics of an older version are shown after those of a newer one, and the
  only way.

  What is shown is read off the messages themselves. A message that shows diagnostics is let out by
  one kind of step only (`shown_of_step`), the version that it carries is the one at which the
  document was open when the pass checked (`Vouched`), and this is the version that the document was
  given last (`VersionGiven`).
-/
import MarkupLint.Proofs.Digits
import MarkupLint.Proofs.ServerCourse

namespace MarkupLint

/-! ## Messages that show diagnostics -/

/-- A message with diagnostics shows the document and the version that they are of. -/
theorem shown?_publication (q : Publication) :
    (ServerMessage.notification "textDocument/publishDiagnostics"
      (Publication.codec.write q)).shown? = some (q.uri, q.version) := by
  show (JsonNumber.ofInt q.version).toInt?.map (q.uri, ·) = _
  rw [JsonNumber.toInt?_ofInt]
  rfl

namespace Server

variable {s s' : Server} {e : ServerEvent} {out : List ServerOutput} {fs : FileSystem}

/-! ## Steps that show diagnostics -/

/-- Diagnostics that a pass lets out are shown once, if there is a client. -/
theorem shown_display_publish (s : Server) (p : Nat) (q : Publication) :
    shown (s.display p (.publish q)) = [(q.uri, q.version)] ∨
      shown (s.display p (.publish q)) = [] := by
  show shown (s.post _) = _ ∨ shown (s.post _) = _
  unfold post
  split
  · rw [shown_singleton, ServerOutput.shown?, shown?_publication]
    exact .inl rfl
  · exact .inr rfl

/-- The output of a pass that shows no diagnostics. -/
def IsAside : PassOutput → Prop
  | .publish _ => False
  | .progress _ | .log _ => True

/-- What a pass lets out besides its outcome shows no diagnostics. -/
theorem shown_display_asides (s : Server) (p : Nat) {out : List PassOutput}
    (h : ∀ o ∈ out, IsAside o) : shown (out.flatMap (s.display p)) = [] := by
  induction out with
  | nil => rfl
  | cons o out ih =>
    rw [List.flatMap_cons, shown_append, ih fun o ho => h o (List.mem_cons_of_mem _ ho)]
    have ho := h o (List.mem_cons_self ..)
    cases o with
    | publish q => exact ho.elim
    | progress r =>
      rw [show s.display p (.progress r) = s.post _ from rfl, shown_post_of_none s rfl]; rfl
    | log e => rfl

/-- A step of a pass lets out diagnostics only when it shows its outcome. -/
theorem asides_or_publish {w w' : Workspace} {we : WorkspaceEvent} {out : List PassOutput}
    (h : Workspace.Effect w we w' out) :
    (∀ o ∈ out, IsAside o) ∨ ∃ p a v, we = .publish p ∧ w.passes[p]? = some a ∧
      a.pass.phase = .fresh v ∧ out = v.publication?.toList.map .publish := by
  cases h with
  | opened _ _ _ _ => exact .inl nofun
  | changed _ _ _ _ _ => exact .inl nofun
  | closed _ => exact .inl nofun
  | settings _ _ _ => exact .inl nofun
  | begin _ _ _ _ => exact .inl (by simp [IsAside])
  | ask _ _ _ _ _ _ _ => exact .inl nofun
  | pass _ n pe a p _ ha he hp =>
    cases hp with
    | publish v hφ =>
      cases he
      exact .inr ⟨n, a, v, rfl, ha, hφ, rfl⟩
    | canceled v hφ => exact .inl (by simp [IsAside])
    | stale ds v hφ hstale => exact .inl (by simp [IsAside])
    | finish failure hφ => exact .inl (by simp [IsAside])
    | _ => exact .inl nofun

/-- The outcome that a pass shows at this step. -/
def Shows (s : Server) (e : ServerEvent) (uri : String) (version : Int) : Prop :=
  ∃ n p a v, e = .pass n (.publish p) ∧ s.workspace.passes[p]? = some a ∧ a.pass.phase = .fresh v ∧
    v.uri = uri ∧ v.version = version

/-- A step of a pass shows diagnostics only if the pass is about to show its outcome. -/
theorem shown_of_stepRun {n p : Nat} {r : LintRun} {we : WorkspaceEvent}
    (h : s.stepRun r p we = some (s', out)) :
    shown out = [] ∨
      ∃ uri version, shown out = [(uri, version)] ∧ Shows s (.pass n we) uri version := by
  unfold stepRun at h
  split at h
  · obtain ⟨⟨w, wout⟩, hstep, heq⟩ := Option.map_eq_some_iff.mp h
    have hw := Workspace.effect_of_step hstep
    simp only at heq
    split at heq
    · -- the request for settings shows nothing, and neither does the step of the call
      obtain ⟨-, rfl⟩ := Prod.mk.inj heq
      refine .inl ?_
      cases hw with
      | settings _ _ _ => exact shown_post_of_none _ rfl
      | pass _ _ _ _ _ _ _ he _ => cases he
    · obtain ⟨-, rfl⟩ := Prod.mk.inj heq
      rcases asides_or_publish hw with hasides | ⟨p', a, v, rfl, ha, hφ, rfl⟩
      · exact .inl (shown_display_asides _ p hasides)
      · cases hq : v.publication? with
        | none => exact .inl rfl
        | some q =>
          obtain ⟨huri, hversion⟩ := Pass.publication?_eq_some hq
          rw [show (some q).toList.map PassOutput.publish = [.publish q] from rfl,
            List.flatMap_singleton]
          rcases shown_display_publish { s with workspace := w } p q with hshown | hnone
          · exact .inr ⟨q.uri, q.version, hshown, n, p', a, v, rfl, ha, hφ, huri.symm,
              hversion.symm⟩
          · exact .inl hnone
  · exact absurd h (by simp)

theorem shown_andThen (r : Reaction) (f : Server → Reaction) :
    shown (r.andThen f).2 = shown r.2 ++ shown (f r.1).2 := shown_append _ _

/-- Setting a timer shows no diagnostics. -/
theorem shown_schedule (s : Server) (uri : String) (trigger : Trigger) :
    shown (s.schedule uri trigger).2 = [] := by
  simp only [schedule]
  split <;> rfl

theorem shown_scheduleAll (s : Server) (trigger : Trigger) :
    shown (s.scheduleAll trigger).2 = [] := by
  have hfold : ∀ (us : List String) (r : Reaction), shown r.2 = [] →
      shown (us.foldl (fun r uri => r.andThen (·.schedule uri trigger)) r).2 = [] := by
    intro us
    induction us with
    | nil => exact fun _ h => h
    | cons u us ih =>
      intro r h
      refine ih _ ?_
      rw [shown_andThen, h, shown_schedule]
      rfl
  exact hfold _ (s, []) rfl

theorem shown_logs (es : List LogEntry) : shown (es.map .log) = [] := by
  induction es with
  | nil => rfl
  | cons e es ih => exact ih

theorem shown_watch (w : Watcher) (we : WatchEvent) : shown (s.watch fs w we).2 = [] := by
  simp only [watch]
  split
  · exact shown_logs _
  · rw [shown_andThen, shown_append, shown_logs, shown_scheduleAll]
    rfl

/-- Tasks show none, as the messages that they send are answers. -/
theorem shown_perform {t : ServerTask} (ht : ∀ m, t = .send m → m.isAnswer = true) :
    shown (s.perform t).2 = [] := by
  cases t with
  | schedule uri trigger => exact shown_schedule s uri trigger
  | send m => exact shown_post_of_none s (ServerMessage.shown?_of_isAnswer (ht m rfl))
  | _ => rfl

/-- **One kind of step shows diagnostics**, those of one document at one version. -/
theorem shown_of_step (h : s.step fs e = some (s', out))
    (hs : TasksOK s.workspace.documents s.tasks) :
    shown out = [] ∨ ∃ uri version, shown out = [(uri, version)] ∧ Shows s e uri version := by
  cases e with
  | receive m =>
    simp only [step] at h
    split at h
    · rename_i hmay
      have hidle : s.tasks = [] := by simpa using (Bool.and_eq_true_iff.mp hmay).2
      obtain rfl : _ = out := congrArg Prod.snd (Option.some.inj h)
      exact .inl (receive_spec hidle fs m).2.1
    · exact absurd h (by simp)
  | work =>
    simp only [step] at h
    split at h
    · rename_i t ts ht
      obtain rfl : _ = out := congrArg Prod.snd (Option.some.inj h)
      refine .inl (shown_perform fun m hm => hs.isAnswer (m := m) ?_)
      rw [ht, hm]
      exact List.mem_cons_self ..
    · exact absurd h (by simp)
  | hangUp =>
    obtain ⟨-, rfl⟩ := Prod.mk.inj (Option.some.inj h)
    exact .inl rfl
  | fire t =>
    obtain ⟨u, -, heq⟩ := Option.map_eq_some_iff.mp h
    obtain ⟨-, rfl⟩ := Prod.mk.inj heq
    exact .inl rfl
  -- beginning a run reports progress only
  | begin n =>
    simp only [step] at h
    split at h
    · split at h
      · obtain rfl : _ = out := congrArg Prod.snd (Option.some.inj h)
        refine .inl ?_
        unfold beginRun
        split
        · rfl
        · rename_i w wout hstep
          rcases asides_or_publish (Workspace.effect_of_step hstep) with hasides | ⟨_, _, _, heq, _⟩
          · exact shown_display_asides _ _ hasides
          · exact absurd heq (by simp)
      · exact absurd h (by simp)
    · exact absurd h (by simp)
  | pass n we =>
    simp only [step] at h
    split at h
    · split at h
      · exact shown_of_stepRun h
      · exact absurd h (by simp)
    · exact absurd h (by simp)
  | passed n =>
    simp only [step] at h
    split at h
    · split at h
      · obtain ⟨-, rfl⟩ := Prod.mk.inj (Option.some.inj h)
        exact .inl rfl
      · exact absurd h (by simp)
    · exact absurd h (by simp)
  | report n =>
    simp only [step] at h
    split at h
    · rename_i failure _
      obtain ⟨-, rfl⟩ := Prod.mk.inj (Option.some.inj h)
      cases failure with
      | none => exact .inl rfl
      | some f => exact .inl (shown_logMessage s _ _)
    · exact absurd h (by simp)
  | leave n =>
    simp only [step] at h
    split at h
    · split at h
      · obtain ⟨-, rfl⟩ := Prod.mk.inj (Option.some.inj h)
        exact .inl rfl
      · exact absurd h (by simp)
    · exact absurd h (by simp)
  | watch we =>
    simp only [step] at h
    split at h
    · split at h
      · exact absurd h (by simp)
      · obtain rfl : _ = out := congrArg Prod.snd (Option.some.inj h)
        exact .inl (shown_watch _ we)
    · exact absurd h (by simp)

/-! ## Checks -/

variable {ms : List Instant} {uri : String} {p c k : Nat} {version : Int}

/-- At the time `c` the pass of number `p` checks, and the document is open at this version. -/
def ChecksAt (ms : List Instant) (p : Nat) (uri : String) (version : Int) (c : Nat) : Prop :=
  ∃ s n d, ms[c]? = some ⟨s, .pass n (.checkCurrent p)⟩ ∧ s.workspace.documents.get? uri = some d ∧
    d.version = version

theorem ChecksAt.snoc (h : ChecksAt ms p uri version c) (x : Instant) :
    ChecksAt (ms ++ [x]) p uri version c := by
  obtain ⟨s, n, d, hc, hd⟩ := h
  exact ⟨s, n, d, getElem?_snoc_of_some x hc, hd⟩

/-- Every pass that is about to show its outcome has found the document at the version of the
    outcome. -/
def Vouched (ms : List Instant) (s : Server) : Prop :=
  ∀ (p : Nat) (a : ActivePass) (v : Validation), s.workspace.passes[p]? = some a →
    a.pass.phase = .fresh v → ∃ c, ChecksAt ms p v.uri v.version c

/-- **What one step preserves**: a pass comes to its last phase by a check only. -/
theorem Vouched.step (h : Vouched ms s) (heff : Effect s e s') : Vouched (ms ++ [⟨s, e⟩]) s' := by
  intro p a' v ha' hφ'
  have hold : ∀ a : ActivePass, s.workspace.passes[p]? = some a → a.pass.phase = .fresh v →
      ∃ c, ChecksAt (ms ++ [⟨s, e⟩]) p v.uri v.version c := by
    intro a ha hφ
    obtain ⟨c, hc⟩ := h p a v ha hφ
    exact ⟨c, hc.snoc _⟩
  rcases heff.passes_cases with hsame | ⟨d, hbegun⟩ | ⟨n, we, out, rfl, hw⟩
  · rw [hsame] at ha'
    exact hold a' ha' hφ'
  · rw [hbegun, List.getElem?_append] at ha'
    split at ha'
    · exact hold a' ha' hφ'
    · rw [List.mem_singleton.mp (List.mem_of_getElem? ha')] at hφ'
      exact absurd hφ' (by simp)
  · -- a step of some pass: it leaves this one alone, or is the check
    obtain ⟨a, ha⟩ := hw.pass_before ha' (by rw [hφ']; simp)
    rcases hw.pass_cases ha with ⟨b, hb, hpass, -⟩ | ⟨pe, pass, hb, hbrings, hp⟩
    · obtain rfl := Option.some.inj (ha'.symm.trans hb)
      exact hold a ha (by rw [← hpass]; exact hφ')
    · obtain rfl := Option.some.inj (ha'.symm.trans hb)
      obtain ⟨ds, rfl, -, hcurrent⟩ := hp.check_of_fresh hφ'
      cases hbrings
      obtain ⟨d, hd, hversion⟩ := Documents.isCurrent_iff.mp hcurrent
      exact ⟨ms.length, s, n, d, List.getElem?_concat_length, hd, hversion⟩

/-! ## Versions -/

end Server

/-- The version that a task gives a document. -/
def ServerTask.version? (uri : String) : ServerTask → Option Int
  | .openDocument u _ version _ => if u = uri then some version else none
  | .changeDocument u _ version => if u = uri then version else none
  | _ => none

/-- After a task a document has the version that the task gives it, or the one that it had. -/
theorem ServerTask.version_of_rewrite {t : ServerTask} {ds : Documents} {uri : String}
    {d : Document} (h : (t.rewrite ds).get? uri = some d) :
    t.version? uri = some d.version ∨
      (t.version? uri = none ∧ ∃ old, ds.get? uri = some old ∧ old.version = d.version) := by
  cases t with
  | openDocument u language version text =>
    rw [rewrite, Documents.opened, Table.get?_put] at h
    split at h
    · rename_i hu
      obtain rfl := Option.some.inj h
      exact .inl (if_pos hu.symm)
    · rename_i hu
      exact .inr ⟨if_neg fun heq => hu heq.symm, d, h, rfl⟩
  | changeDocument u text version =>
    by_cases hu : u = uri
    · subst hu
      simp only [rewrite, Documents.changed] at h
      cases hold : ds.get? u with
      | none => rw [hold] at h; exact absurd (h.symm.trans hold) (by simp)
      | some old =>
        simp only [hold, Except.toOption, Option.getD_some, Table.get?_put_self] at h
        obtain rfl := Option.some.inj h
        cases version with
        | none => exact .inr ⟨if_pos rfl, old, rfl, rfl⟩
        | some v => exact .inl (if_pos rfl)
    · have hsame := get?_rewrite_of_not_touches (t := .changeDocument u text version) ds hu
      exact .inr ⟨if_neg hu, d, hsame.symm.trans h, rfl⟩
  | dropDocument u =>
    exact .inr ⟨rfl, d, Table.get?_of_get?_erase h, rfl⟩
  | _ => exact .inr ⟨rfl, d, h, rfl⟩

namespace Server

variable {s s' : Server} {e : ServerEvent} {fs : FileSystem} {ms : List Instant} {uri : String}

/-- The version that a document is given at this moment. -/
def given? (uri : String) (x : Instant) : Option Int :=
  match x.event with
  | .work => x.state.tasks.head?.bind (·.version? uri)
  | _ => none

/-- The versions that a document is given, in their order. -/
def given (uri : String) (ms : List Instant) : List Int := ms.filterMap (given? uri)

theorem given_append (uri : String) (ms ms' : List Instant) :
    given uri (ms ++ ms') = given uri ms ++ given uri ms' := List.filterMap_append

/-- A document that is open is at the version that it was given last. -/
def VersionGiven (ms : List Instant) (s : Server) (uri : String) : Prop :=
  ∀ d, s.workspace.documents.get? uri = some d → (given uri ms).getLast? = some d.version

/-- **What one step preserves**: only tasks change versions, and they are recorded as given. -/
theorem VersionGiven.step (h : VersionGiven ms s uri) (heff : Effect s e s') :
    VersionGiven (ms ++ [⟨s, e⟩]) s' uri := by
  intro d hd
  rw [given_append, List.getLast?_append]
  rcases heff.documents_cases with ⟨t, ts, rfl, ht, -, hds⟩ | ⟨hwork, hds, -⟩
  · have hgiven : given uri [⟨s, .work⟩] = (t.version? uri).toList := by
      unfold given
      cases hv : t.version? uri with
      | none => exact List.filterMap_cons_none (by simp [given?, ht, hv])
      | some v => exact List.filterMap_cons_some (by simp [given?, ht, hv])
    rw [hds] at hd
    rcases ServerTask.version_of_rewrite hd with hv | ⟨hv, old, hold, hversion⟩
    · rw [hgiven, hv]
      rfl
    · rw [hgiven, hv, ← hversion]
      exact h old hold
  · have hgiven : given uri [⟨s, e⟩] = [] := by
      refine List.filterMap_cons_none ?_
      cases e with
      | work => exact absurd rfl hwork
      | _ => rfl
    rw [hds] at hd
    rw [hgiven]
    exact h d hd

/-! ## Whole courses -/

section Courses

variable {debounce : Int} {x : Instant} {p c k : Nat} {version : Int}

/-- What a step lets out. -/
def output (fs : FileSystem) (x : Instant) : List ServerOutput :=
  ((x.state.step fs x.event).map (·.2)).getD []

/-- The versions at which diagnostics of the document are shown at this moment. -/
def versionsAt (fs : FileSystem) (uri : String) (x : Instant) : List Int :=
  ((shown (output fs x)).filter fun y => y.1 = uri).map (·.2)

/-- The versions at which diagnostics of the document are shown, in their order. -/
def versionsShown (fs : FileSystem) (uri : String) (ms : List Instant) : List Int :=
  ms.flatMap (versionsAt fs uri)

/-- At the time `k` the pass of number `p` shows diagnostics of the document at this version. -/
def ShowsAt (fs : FileSystem) (ms : List Instant) (p : Nat) (uri : String) (version : Int)
    (k : Nat) : Prop :=
  ∃ s n, ms[k]? = some ⟨s, .pass n (.publish p)⟩ ∧
    version ∈ versionsAt fs uri ⟨s, .pass n (.publish p)⟩

/-- The document is given a version after the time `c` and before the time `c'`. -/
def GivenBetween (ms : List Instant) (uri : String) (c c' : Nat) : Prop :=
  ∃ t x, c < t ∧ t < c' ∧ ms[t]? = some x ∧ (given? uri x).isSome = true

/-- A pass is overtaken: after it has found its document at its version, the document is given
    another one, and another pass finds the document at that version and shows what it has found,
    before the first one does. -/
def Overtaken (fs : FileSystem) (ms : List Instant) (uri : String) : Prop :=
  ∃ p p' v v' c c' k' k, ChecksAt ms p uri v c ∧ GivenBetween ms uri c c' ∧
    ChecksAt ms p' uri v' c' ∧ c' < k' ∧ ShowsAt fs ms p' uri v' k' ∧ k' < k ∧
    ShowsAt fs ms p uri v k

/-- Whatever is about to be shown has been checked. -/
theorem vouched_of_course (h : Course (next fs) (fresh debounce) ms s) : Vouched ms s := by
  induction h with
  | nil => exact fun p a v ha => absurd ha (by simp [fresh])
  | snoc _ hstep ih => exact ih.step (effect_of_next hstep)

/-- The version of an open document is the one given last. -/
theorem versionGiven_of_course (h : Course (next fs) (fresh debounce) ms s) (uri : String) :
    VersionGiven ms s uri := by
  induction h with
  | nil => exact fun d hd => absurd hd (by simp [fresh])
  | snoc _ hstep ih => exact ih.step (effect_of_next hstep)

/-- Every moment of a course shows the diagnostics of at most one document, and what it shows is
    vouched for. -/
theorem versionsAt_cases (uri : String) (h : Course (next fs) (fresh debounce) ms s)
    (hk : ms[k]? = some x) :
    versionsAt fs uri x = [] ∨ ∃ p version c, versionsAt fs uri x = [version] ∧
      ShowsAt fs ms p uri version k ∧ ChecksAt ms p uri version c ∧ c < k := by
  have hat := h.take hk
  cases hstep : x.state.step fs x.event with
  | none => exact .inl (by simp [versionsAt, output, hstep, shown])
  | some r =>
    have hout : output fs x = r.2 := by simp [output, hstep]
    rcases shown_of_step hstep (tasksOK_of_course hat) with hnone | ⟨u, v, hshown, hshows⟩
    · exact .inl (by simp [versionsAt, hout, hnone])
    · -- a step shows one document, which is this one or not
      by_cases hu : u = uri
      · subst hu
        have hversions : versionsAt fs u x = [v] := by simp [versionsAt, hout, hshown]
        obtain ⟨n, p, a, val, he, ha, hφ, rfl, rfl⟩ := hshows
        obtain ⟨c, w, m, d, hc, hd⟩ := vouched_of_course hat p a val ha hφ
        obtain ⟨hck, hc⟩ := getElem?_of_take hc
        refine .inr ⟨p, val.version, c, hversions, ⟨x.state, n, ?_, ?_⟩, ⟨w, m, d, hc, hd⟩, hck⟩
        · rw [hk, ← he]
        · rw [← he, hversions]
          exact List.mem_singleton.mpr rfl
      · exact .inl (by simp [versionsAt, hout, hshown, hu])

theorem pairwise_versionsAt (uri : String) (h : Course (next fs) (fresh debounce) ms s)
    (hk : ms[k]? = some x) : (versionsAt fs uri x).Pairwise (· ≤ ·) := by
  rcases versionsAt_cases uri h hk with hnone | ⟨_, v, _, hone, -⟩
  · rw [hnone]
    exact .nil
  · rw [hone]
    exact List.pairwise_singleton _ v

/-- What is shown at a moment has been shown by a pass, and checked by it before. -/
theorem shows_of_mem (h : Course (next fs) (fresh debounce) ms s) (hk : ms[k]? = some x)
    (hv : version ∈ versionsAt fs uri x) :
    ∃ p c, ShowsAt fs ms p uri version k ∧ ChecksAt ms p uri version c ∧ c < k := by
  rcases versionsAt_cases uri h hk with hnone | ⟨p, v, c, hone, hshows, hc, hck⟩
  · rw [hnone] at hv
    exact absurd hv List.not_mem_nil
  · rw [hone] at hv
    obtain rfl := List.mem_singleton.mp hv
    exact ⟨p, c, hshows, hc, hck⟩

/-- The version that is found at a check is the one that the document was given last. -/
theorem ChecksAt.given (h : Course (next fs) (fresh debounce) ms s)
    (hc : ChecksAt ms p uri version c) :
    (Server.given uri (ms.take c)).getLast? = some version := by
  obtain ⟨w, n, d, hc, hd, rfl⟩ := hc
  exact versionGiven_of_course (h.take hc) uri d hd

/-- The versions that are given from one time up to another. -/
theorem mem_given_between {c c' : Nat} {v : Int} :
    v ∈ Server.given uri ((ms.take c').drop c) ↔
      ∃ t x, c ≤ t ∧ t < c' ∧ ms[t]? = some x ∧ given? uri x = some v := by
  unfold Server.given
  rw [List.mem_filterMap]
  constructor
  · rintro ⟨x, hx, hv⟩
    obtain ⟨i, hi⟩ := List.mem_iff_getElem?.mp hx
    rw [List.getElem?_drop] at hi
    obtain ⟨hlt, hi⟩ := getElem?_of_take hi
    exact ⟨c + i, x, Nat.le_add_right c i, hlt, hi, hv⟩
  · rintro ⟨t, x, hct, htc, ht, hv⟩
    refine ⟨x, List.mem_iff_getElem?.mpr ⟨t - c, ?_⟩, hv⟩
    rw [List.getElem?_drop, show c + (t - c) = t by omega]
    exact getElem?_take_of_lt ht htc

/-- The versions given up to a later time are the earlier ones and then those in between. -/
theorem given_take_of_le {c c' : Nat} (hle : c ≤ c') :
    Server.given uri (ms.take c') =
      Server.given uri (ms.take c) ++ Server.given uri ((ms.take c').drop c) := by
  have htake : (ms.take c').take c = ms.take c := by
    rw [List.take_take, Nat.min_eq_left hle]
  rw [← htake, ← given_append, List.take_append_drop]

theorem rising_take (hrising : (Server.given uri ms).Pairwise (· < ·)) (c : Nat) :
    (Server.given uri (ms.take c)).Pairwise (· < ·) := by
  have hsplit : Server.given uri ms =
      Server.given uri (ms.take c) ++ Server.given uri (ms.drop c) := by
    rw [← given_append, List.take_append_drop]
  rw [hsplit] at hrising
  exact (List.pairwise_append.mp hrising).1

/-- A later check finds a larger version if the document was given one in between, and the same one
    if not. -/
theorem ChecksAt.compare (h : Course (next fs) (fresh debounce) ms s)
    (hrising : (Server.given uri ms).Pairwise (· < ·)) {p p' c c' : Nat} {v v' : Int}
    (hc : ChecksAt ms p uri v c) (hc' : ChecksAt ms p' uri v' c') (hle : c ≤ c') :
    (GivenBetween ms uri c c' ∧ v < v') ∨ (¬ GivenBetween ms uri c c' ∧ v = v') := by
  have hlast := hc.given h
  have hlast' := hc'.given h
  have hrising' := rising_take hrising c'
  rw [given_take_of_le hle] at hlast' hrising'
  rw [List.getLast?_append] at hlast'
  -- by the last version that was given in between, if any was
  cases hrest : (Server.given uri ((ms.take c').drop c)).getLast? with
  | some w =>
    rw [hrest] at hlast'
    obtain rfl : w = v' := Option.some.inj hlast'
    have hw := List.mem_of_getLast? hrest
    refine .inl ⟨?_, ?_⟩
    · obtain ⟨t, x, hct, htc, ht, hx⟩ := mem_given_between.mp hw
      refine ⟨t, x, ?_, htc, ht, by rw [hx]; rfl⟩
      -- a check gives no version
      rcases Nat.lt_or_eq_of_le hct with hlt | rfl
      · exact hlt
      · obtain ⟨u, n, d, hcu, -⟩ := hc
        obtain rfl := Option.some.inj (hcu.symm.trans ht)
        exact absurd hx (by simp [given?])
    · exact (List.pairwise_append.mp hrising').2.2 v (List.mem_of_getLast? hlast) w hw
  | none =>
    rw [hrest, hlast] at hlast'
    refine .inr ⟨?_, Option.some.inj hlast'⟩
    rintro ⟨t, x, hct, htc, ht, hx⟩
    obtain ⟨w, hw⟩ := Option.isSome_iff_exists.mp hx
    have hmem := mem_given_between.mpr ⟨t, x, Nat.le_of_lt hct, htc, ht, hw⟩
    rw [List.getLast?_eq_none_iff.mp hrest] at hmem
    exact absurd hmem List.not_mem_nil

/-- The pass that is overtaken shows a smaller version after a larger one. -/
theorem Overtaken.falls (h : Course (next fs) (fresh debounce) ms s)
    (hrising : (Server.given uri ms).Pairwise (· < ·)) (hover : Overtaken fs ms uri) :
    ∃ p p' v v' k' k, ShowsAt fs ms p' uri v' k' ∧ ShowsAt fs ms p uri v k ∧ k' < k ∧ v < v' := by
  obtain ⟨p, p', v, v', c, c', k', k, hc, hgiven, hc', -, hk', hkk, hk⟩ := hover
  have hcc : c ≤ c' := by
    obtain ⟨t, x, hct, htc, -⟩ := hgiven
    omega
  rcases hc.compare h hrising hc' hcc with ⟨-, hlt⟩ | ⟨hno, -⟩
  · exact ⟨p, p', v, v', k', k, hk', hk, hkk, hlt⟩
  · exact absurd hgiven hno

/-- If a smaller version is shown after a larger one, its pass is overtaken: the larger version was
    found later, and given in between. -/
theorem overtaken_of_falls {x x' : Instant} {k k' : Nat} {v v' : Int}
    (h : Course (next fs) (fresh debounce) ms s) (hrising : (Server.given uri ms).Pairwise (· < ·))
    (hx' : ms[k']? = some x') (hv' : v' ∈ versionsAt fs uri x') (hx : ms[k]? = some x)
    (hv : v ∈ versionsAt fs uri x) (hkk : k' < k) (hfalls : v < v') : Overtaken fs ms uri := by
  obtain ⟨p', c', hk', hc', hck'⟩ := shows_of_mem h hx' hv'
  obtain ⟨p, c, hk, hc, -⟩ := shows_of_mem h hx hv
  -- versions rise from check to check, so the larger one was found at the later check
  rcases Nat.le_total c c' with hle | hle
  · rcases hc.compare h hrising hc' hle with ⟨hgiven, -⟩ | ⟨-, heq⟩
    · exact ⟨p, p', v, v', c, c', k', k, hc, hgiven, hc', hck', hk', hkk, hk⟩
    · omega
  · rcases hc'.compare h hrising hc hle with ⟨-, hgt⟩ | ⟨-, heq⟩ <;> omega

/-- **When diagnostics are shown in the order of versions.** Let messages, timers and runs
    interleave in any way, and let the versions that a document is given rise. Then the versions at
    which its diagnostics are shown never fall if and only if no pass over the document is overtaken
    by one over a later version between its check and the moment at which it shows what it has
    found. -/
theorem shown_in_order_iff (h : Course (next fs) (fresh debounce) ms s)
    (hrising : (Server.given uri ms).Pairwise (· < ·)) :
    (versionsShown fs uri ms).Pairwise (· ≤ ·) ↔ ¬ Overtaken fs ms uri := by
  unfold versionsShown
  rw [List.pairwise_flatMap, List.pairwise_iff_getElem]
  constructor
  · rintro ⟨-, hordered⟩ hover
    obtain ⟨p, p', v, v', k', k, ⟨w', n', hw', hv'⟩, ⟨w, n, hw, hv⟩, hkk, hlt⟩ :=
      hover.falls h hrising
    obtain ⟨hk', heq'⟩ := List.getElem?_eq_some_iff.mp hw'
    obtain ⟨hk, heq⟩ := List.getElem?_eq_some_iff.mp hw
    have hle := hordered k' k hk' hk hkk v' (by rw [heq']; exact hv') v (by rw [heq]; exact hv)
    omega
  · intro hnot
    refine ⟨fun x hx => ?_, fun k' k hk' hk hkk v' hv' v hv => ?_⟩
    · obtain ⟨k, hk⟩ := List.mem_iff_getElem?.mp hx
      exact pairwise_versionsAt uri h hk
    · refine Int.not_lt.mp fun hfalls => hnot ?_
      exact overtaken_of_falls h hrising (List.getElem?_eq_getElem hk') hv'
        (List.getElem?_eq_getElem hk) hv hkk hfalls

end Courses

/-- A document is opened and changed. The pass over the first version comes to the point at which it
    is about to show what it has found, then `between` happens, and then the pass over the second
    version comes to that point, and `after` happens. -/
def changedInBetween (between after : List ServerEvent) : List ServerEvent :=
  [opening "a" "1" 1, .work, .work, .fire 0] ++ judging 0 0 0 ++ between ++
    [changing "a" "2" 2, .work, .work, .fire 1] ++ judging 1 1 1 ++ after

/-- Here the first pass has shown what it found before the document changes. -/
theorem shown_in_order_iff_oneAfterTheOther :
    versionsShown .empty "a" (Course.moments (next .empty) (fresh 0)
      (changedInBetween (concluding 0 0) (concluding 1 1))) = [1, 2] ∧
    ¬ Overtaken .empty (Course.moments (next .empty) (fresh 0)
      (changedInBetween (concluding 0 0) (concluding 1 1))) "a" := by
  have hgiven : Server.given "a" (Course.moments (next .empty) (fresh 0)
      (changedInBetween (concluding 0 0) (concluding 1 1))) = [1, 2] := rfl
  have hshown : versionsShown .empty "a" (Course.moments (next .empty) (fresh 0)
      (changedInBetween (concluding 0 0) (concluding 1 1))) = [1, 2] := rfl
  refine ⟨hshown, (shown_in_order_iff (Course.of_events _ rfl) ?_).mp ?_⟩
  · rw [hgiven]
    decide
  · rw [hshown]
    decide

/-- Diagnostics of an older version can be shown after those of a newer one, and stay: the pass over
    the first version has checked before the change, and shows what it has found after the other
    pass has. -/
theorem older_version_shown_last :
    ∃ ms s, Course (next .empty) (fresh 0) ms s ∧ Server.given "a" ms = [1, 2] ∧
      versionsShown .empty "a" ms = [2, 1] ∧ ¬ (versionsShown .empty "a" ms).Pairwise (· ≤ ·) := by
  refine ⟨Course.moments (next .empty) (fresh 0)
    (changedInBetween [] (concluding 1 1 ++ concluding 0 0)), _, Course.of_events _ rfl, rfl, rfl,
    ?_⟩
  show ¬ [(2 : Int), 1].Pairwise (· ≤ ·)
  decide

end Server
end MarkupLint
