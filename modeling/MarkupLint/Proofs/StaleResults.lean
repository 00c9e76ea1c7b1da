/-
  What a pass shows is never about another version of the document than the one that is open when
  the pass checks. It can be about another text: staleness is a matter of versions, and a text can
  be replaced without a new version, or a document closed and opened again at the version that it
  had. These are the only ways.

  Two things are followed from the moment at which the pass has taken its document. The entry of
  the document in the table is explained by that document, or by the last change of it since
  (`EntryExplained`). And the outcome of the pass stems from the one answer that it got from the
  linter, or from a failure if it did not ask the linter (`Stems`). In surroundings in which the
  linter answers what it is asked (`LintedIn`), that answer is one to the text of the document
  that the pass has taken (`ComputedFrom`).
-/
import Mathlib.Data.List.Basic
import MarkupLint.Proofs.PassCourse

namespace MarkupLint

/-- The event changes the entry of a document in the table. -/
def WorkspaceEvent.Touches (uri : String) : WorkspaceEvent → Prop
  | .opened u _ _ _ | .changed u _ _ | .closed u => u = uri
  | _ => False

/-- The event gives a document a text and no other version than this. -/
def WorkspaceEvent.Rewrites (uri : String) (version : Int) (text : Bytes) : WorkspaceEvent → Prop
  | .opened u _ v t => u = uri ∧ v = version ∧ t = text
  | .changed u t v => u = uri ∧ t = text ∧ (v = none ∨ v = some version)
  | _ => False

namespace Workspace

/-- A moment in the course of a workspace. -/
abbrev Instant := Moment Workspace WorkspaceEvent

/-- One step, whatever it lets out. -/
def next (w : Workspace) (e : WorkspaceEvent) : Option Workspace := (w.step e).map (·.1)

/-- A workspace without documents and passes. -/
def blank (root : Bytes) (fetches : Bool) : Workspace := { root := root, fetches := fetches }

variable {ms : List Instant} {x : Instant} {w w' : Workspace} {e : WorkspaceEvent}
  {out : List PassOutput} {n b c k : Nat} {uri : String} {d : Document}

/-- A step has one of the effects, whatever it lets out. -/
theorem effect_of_next (h : w.next e = some w') : ∃ out, Effect w e w' out := by
  obtain ⟨⟨v, out⟩, hstep, rfl⟩ := Option.map_eq_some_iff.mp h
  exact ⟨out, effect_of_step hstep⟩

/-- The pass of number `n` begins at the time `b`, and takes the document as it is. -/
def TakesAt (ms : List Instant) (n : Nat) (uri : String) (d : Document) (b : Nat) : Prop :=
  ∃ w trigger, ms[b]? = some ⟨w, .begin uri trigger⟩ ∧ w.passes.length = n ∧
    w.documents.get? uri = some d

/-- The last change of a document after the time `b` and before the time `c` gave it this text and
    no other version than this. -/
def Rewritten (ms : List Instant) (uri : String) (version : Int) (text : Bytes)
    (b c : Nat) : Prop :=
  ∃ l x, ms[l]? = some x ∧ b < l ∧ l < c ∧ x.event.Rewrites uri version text ∧
    ∀ i y, l < i → i < c → ms[i]? = some y → ¬ y.event.Touches uri

/-- A pass that has taken the document `d` at the time `b` checks at the time `c` whether the
    document is still at its version, and it is. It has its text, or it was rewritten since. -/
structure Checked (ms : List Instant) (n : Nat) (uri : String) (d : Document)
    (b c : Nat) : Prop where
  after : b < c
  check : ∃ w a d', ms[c]? = some ⟨w, .checkCurrent n⟩ ∧ w.passes[n]? = some a ∧
    a.pass.document = d ∧ w.documents.get? uri = some d' ∧ d'.version = d.version ∧
    (d'.text = d.text ∨ Rewritten ms uri d.version d'.text b c)
  once : ∀ l w, ms[l]? = some ⟨w, .checkCurrent n⟩ → l = c

/-! ## Where diagnostics come from -/

/-- If the linter answers at this moment, its answer is one to what the pass asks of it. -/
def AnswersIn (env : Surroundings) (x : Instant) : Prop :=
  match x.event with
  | .linted n r => ∃ canceled log, x.state.next? env n canceled = some (.linted n r, log)
  | _ => True

/-- The linter answers what it is asked all along. The surroundings may be others at each time, so
    whatever answers there are in a course, there are surroundings in which they are given. -/
def LintedIn (env : Nat → Surroundings) (ms : List Instant) : Prop :=
  ∀ (l : Nat) (x : Instant), ms[l]? = some x → AnswersIn (env l) x

/-- The pass of number `n` has had no answer from the linter. -/
def Unlinted (ms : List Instant) (n : Nat) : Prop :=
  ∀ (l : Nat) (w : Workspace) (r : Except Failure (Option (List Issue))),
    ms[l]? ≠ some ⟨w, .linted n r⟩

/-- Documents stand under their own names. -/
def Keyed (ds : Documents) : Prop := ∀ u d, ds.get? u = some d → d.uri = u

/-- Opening a document keeps all of them under their own names. -/
theorem Keyed.opened {ds : Documents} (h : Keyed ds) (uri language : String) (version : Int)
    (text : Bytes) : Keyed (ds.opened uri language version text) := by
  intro u d hd
  rw [Documents.opened, Table.get?_put] at hd
  split at hd
  · exact Option.some.inj hd ▸ (‹u = uri›).symm
  · exact h u d hd

theorem Keyed.changed {ds : Documents} (h : Keyed ds) {old : Document}
    (hold : ds.get? uri = some old) (text : Bytes) (version : Int) :
    Keyed (Table.put ds uri { old with text := text, version := version }) := by
  intro u d hd
  rw [Table.get?_put] at hd
  split at hd
  · rename_i hu
    exact Option.some.inj hd ▸ (h uri old hold).trans hu.symm
  · exact h u d hd

theorem Keyed.closed {ds : Documents} (h : Keyed ds) (uri : String) : Keyed (ds.closed uri) :=
  fun u d hd => h u d (Table.get?_of_get?_erase hd)

/-- **What one step preserves**: documents stand under their own names. -/
theorem Effect.keyed (h : Effect w e w' out) (hw : Keyed w.documents) : Keyed w'.documents := by
  cases h with
  | opened u language version text => exact hw.opened u language version text
  | changed u text version old hold => exact hw.changed hold text _
  | closed u => exact hw.closed u
  | settings _ _ _ => exact hw
  | begin _ _ _ _ => exact hw
  | ask _ _ _ _ _ _ _ => exact hw
  | pass _ _ _ _ _ _ _ _ _ => exact hw

/-- An event that does not touch a document leaves its entry alone. -/
theorem Effect.get?_of_not_touches (h : Effect w e w' out) (he : ¬ e.Touches uri) :
    w'.documents.get? uri = w.documents.get? uri := by
  cases h with
  | opened u language version text =>
    exact Table.get?_put_of_ne _ _ fun hu => he hu.symm
  | changed u text version old hold =>
    exact Table.get?_put_of_ne _ _ fun hu => he hu.symm
  | closed u => exact Table.get?_erase_of_ne _ fun hu => he hu.symm
  | settings _ _ _ => rfl
  | begin _ _ _ _ => rfl
  | ask _ _ _ _ _ _ _ => rfl
  | pass _ _ _ _ _ _ _ _ _ => rfl

/-- After an event that touches a document, its entry has the version and the text of the event. -/
theorem Effect.rewrites_of_touches {d' : Document} (h : Effect w e w' out) (he : e.Touches uri)
    (hd' : w'.documents.get? uri = some d') : e.Rewrites uri d'.version d'.text := by
  cases h with
  | opened u language version text =>
    obtain rfl : u = uri := he
    rw [Documents.opened, Table.get?_put_self] at hd'
    exact Option.some.inj hd' ▸ ⟨rfl, rfl, rfl⟩
  | changed u text version old hold =>
    obtain rfl : u = uri := he
    rw [Table.get?_put_self] at hd'
    obtain rfl := Option.some.inj hd'
    refine ⟨rfl, rfl, ?_⟩
    cases version with
    | none => exact .inl rfl
    | some v => exact .inr rfl
  | closed u =>
    obtain rfl : u = uri := he
    rw [Documents.closed, Table.get?_erase_self] at hd'
    exact absurd hd' (by simp)
  | settings _ _ _ => exact he.elim
  | begin _ _ _ _ => exact he.elim
  | ask _ _ _ _ _ _ _ => exact he.elim
  | pass _ _ _ _ _ _ _ _ hp => cases ‹Brings _ _ _ _ _› <;> exact he.elim

/-! ## The entry of a document since a pass has taken it -/

/-- A document at the version of `d` has the text of `d`, or was rewritten after the time `b`. -/
def EntryExplained (ms : List Instant) (uri : String) (d : Document) (b : Nat)
    (entry : Option Document) : Prop :=
  ∀ d', entry = some d' → d'.version = d.version →
    d'.text = d.text ∨ Rewritten ms uri d.version d'.text b ms.length

/-- A change of a document is the last one until it is touched again. -/
theorem Rewritten.snoc {version : Int} {text : Bytes}
    (h : Rewritten ms uri version text b ms.length) (hx : ¬ x.event.Touches uri) :
    Rewritten (ms ++ [x]) uri version text b (ms ++ [x]).length := by
  obtain ⟨l, y, hl, hbl, hlt, hy, hlast⟩ := h
  refine ⟨l, y, getElem?_snoc_of_some x hl, hbl, by simp; omega, hy, fun i z hi _ hz => ?_⟩
  rcases getElem?_snoc_cases hz with hold | ⟨-, rfl⟩
  · exact hlast i z hi (lt_length_of_getElem? hold) hold
  · exact hx

/-- A step leaves the entry explained: by what explained it before, or by the step itself. -/
theorem EntryExplained.step (h : EntryExplained ms uri d b (w.documents.get? uri))
    (hb : b < ms.length) (heff : Effect w e w' out) :
    EntryExplained (ms ++ [⟨w, e⟩]) uri d b (w'.documents.get? uri) := by
  intro d' hd' hversion
  by_cases ht : e.Touches uri
  · -- the step is now the last change of the document
    right
    refine ⟨ms.length, ⟨w, e⟩, List.getElem?_concat_length, hb, by simp, ?_,
      fun i y hi hlt hy => ?_⟩
    · rw [← hversion]
      exact heff.rewrites_of_touches ht hd'
    · simp only [List.length_append, List.length_singleton] at hlt
      omega
  · rw [heff.get?_of_not_touches ht] at hd'
    rcases h d' hd' hversion with htext | hre
    · exact .inl htext
    · exact .inr (hre.snoc ht)

/-! ## The outcome of a pass since it has taken a document -/

/-- The outcome `v` of a pass over `d` is made of its one answer from the linter, which came in at
    the time `l`. -/
structure AnsweredAt (ms : List Instant) (n : Nat) (d : Document) (v : Validation)
    (l : Nat) : Prop where
  answer : ∃ w a settings config r, ms[l]? = some ⟨w, .linted n r⟩ ∧ w.passes[n]? = some a ∧
    a.pass = ⟨d, .linting settings config⟩ ∧ v = Pass.answered d settings r
  once : ∀ i w r, ms[i]? = some ⟨w, .linted n r⟩ → i = l

/-- Where the outcome of a pass over `d` stems from: an answer between the times `b` and `c`, or a
    failure without any answer. -/
def Stems (ms : List Instant) (n : Nat) (d : Document) (b c : Nat) (v : Validation) : Prop :=
  (∃ l, b < l ∧ l < c ∧ AnsweredAt ms n d v l) ∨
    (Unlinted ms n ∧ ∃ settings f, v = Pass.failed d settings f)

/-- A pass is without an answer until the linter answers it. -/
theorem Unlinted.snoc (h : Unlinted ms n) (hx : ∀ r, x.event ≠ .linted n r) :
    Unlinted (ms ++ [x]) n := by
  intro l w r hl
  rcases getElem?_snoc_cases hl with hold | ⟨-, rfl⟩
  · exact h l w r hold
  · exact hx r rfl

/-- An answer is the only one until there is another. -/
theorem AnsweredAt.snoc {v : Validation} {l : Nat} (h : AnsweredAt ms n d v l)
    (hx : ∀ r, x.event ≠ .linted n r) : AnsweredAt (ms ++ [x]) n d v l := by
  obtain ⟨w, a, settings, config, r, hl, hrest⟩ := h.answer
  refine ⟨⟨w, a, settings, config, r, getElem?_snoc_of_some x hl, hrest⟩, fun i u r' hi => ?_⟩
  rcases getElem?_snoc_cases hi with hold | ⟨-, rfl⟩
  · exact h.once i u r' hold
  · exact absurd rfl (hx r')

/-- An outcome stems from where it stemmed as long as the pass gets no further answer. -/
theorem Stems.snoc {v : Validation} {c' : Nat} (h : Stems ms n d b c v)
    (hx : ∀ r, x.event ≠ .linted n r) (hc : c ≤ c') : Stems (ms ++ [x]) n d b c' v := by
  rcases h with ⟨l, hbl, hlc, hl⟩ | ⟨hnone, hfailed⟩
  · exact .inl ⟨l, hbl, Nat.lt_of_lt_of_le hlc hc, hl.snoc hx⟩
  · exact .inr ⟨hnone.snoc hx, hfailed⟩

/-- The first answer that comes in makes the outcome. -/
theorem stems_of_answer {a : ActivePass} {settings : Settings} {config : Config}
    {r : Except Failure (Option (List Issue))} (hb : b < ms.length) (hnone : Unlinted ms n)
    (ha : w.passes[n]? = some a) (hpass : a.pass = ⟨d, .linting settings config⟩) :
    Stems (ms ++ [⟨w, .linted n r⟩]) n d b (ms.length + 1) (Pass.answered d settings r) := by
  refine .inl ⟨ms.length, hb, Nat.lt_succ_self _, ?_, fun i u r' hi => ?_⟩
  · exact ⟨w, a, settings, config, r, List.getElem?_concat_length, ha, hpass, rfl⟩
  · rcases getElem?_snoc_cases hi with hold | ⟨hlast, -⟩
    · exact absurd hold (hnone i u r')
    · exact hlast

/-- The trail of the pass of number `n`, which has taken the document `d` at the time `b`. -/
structure Trail (ms : List Instant) (n : Nat) (uri : String) (d : Document) (b : Nat)
    (p : Pass) : Prop where
  document : p.document = d
  sound : p.Sound
  unlinted : p.phase.isUnjudged = true → Unlinted ms n
  unchecked : p.phase.isUnchecked = true →
    ∀ (l : Nat) (v : Workspace), ms[l]? ≠ some ⟨v, .checkCurrent n⟩
  outcome : ∀ v, p.phase.validation? = some v → Stems ms n d b ms.length v
  checked : ∀ v, p.phase = .fresh v → ∃ c, Checked ms n uri d b c ∧ Stems ms n d b c v

/-- Where a pass stands that has taken the document `d` at the time `b`. -/
structure PassFollowed (ms : List Instant) (w : Workspace) (n : Nat) (uri : String) (d : Document)
    (b : Nat) : Prop where
  since : b < ms.length
  named : d.uri = uri
  entry : EntryExplained ms uri d b (w.documents.get? uri)
  pass : ∃ a, w.passes[n]? = some a ∧ Trail ms n uri d b a.pass

/-- What a check has found stays so. -/
theorem Checked.snoc (h : Checked ms n uri d b c) (hx : x.event ≠ .checkCurrent n) :
    Checked (ms ++ [x]) n uri d b c := by
  obtain ⟨w, a, d', hc, ha, hdoc, hd', hversion, htext⟩ := h.check
  refine ⟨h.after, ⟨w, a, d', getElem?_snoc_of_some x hc, ha, hdoc, hd', hversion, ?_⟩,
    fun l v hl => ?_⟩
  · -- the check is in the past, so nothing that comes later is between it and the change
    rcases htext with htext | ⟨l, y, hl, hbl, hlc, hy, hlast⟩
    · exact .inl htext
    · refine .inr ⟨l, y, getElem?_snoc_of_some x hl, hbl, hlc, hy, fun i z hi hic hz => ?_⟩
      rcases getElem?_snoc_cases hz with hold | ⟨rfl, -⟩
      · exact hlast i z hi hic hold
      · have := lt_length_of_getElem? hc
        omega
  · rcases getElem?_snoc_cases hl with hold | ⟨-, rfl⟩
    · exact h.once l v hold
    · exact absurd rfl hx

/-- The check of a pass that finds its document at its version. -/
theorem PassFollowed.checked {a : ActivePass} {v : Validation} (h : PassFollowed ms w n uri d b)
    (ha : w.passes[n]? = some a) (hφ : a.pass.phase = .live v)
    (hcurrent : w.documents.isCurrent v.uri v.version = true) :
    Checked (ms ++ [⟨w, .checkCurrent n⟩]) n uri d b ms.length := by
  obtain ⟨a', ha', htrail⟩ := h.pass
  obtain rfl : a = a' := Option.some.inj (ha.symm.trans ha')
  obtain ⟨huri, hversion⟩ := htrail.sound v (by rw [hφ]; rfl)
  -- what the pass checks is the version that it has taken
  rw [huri, hversion, htrail.document, h.named] at hcurrent
  obtain ⟨d', hd', hd'v⟩ := Documents.isCurrent_iff.mp hcurrent
  refine ⟨h.since, ⟨w, a, d', List.getElem?_concat_length, ha, htrail.document, hd', hd'v, ?_⟩,
    fun l u hl => ?_⟩
  · rcases h.entry d' hd' hd'v with htext | ⟨l, y, hl, hbl, hlt, hy, hlast⟩
    · exact .inl htext
    · refine .inr ⟨l, y, getElem?_snoc_of_some _ hl, hbl, hlt, hy, fun i z hi hlt' hz => ?_⟩
      rw [List.getElem?_append_left hlt'] at hz
      exact hlast i z hi hlt' hz
  · rcases getElem?_snoc_cases hl with hold | ⟨hlen, -⟩
    · exact absurd hold (htrail.unchecked (by rw [hφ]; rfl) l u)
    · exact hlen

/-- Somebody else's step leaves the trail of a pass as it is. -/
theorem Trail.snoc {p : Pass} (h : Trail ms n uri d b p) (hx : x.event.pass? ≠ some n) :
    Trail (ms ++ [x]) n uri d b p := by
  have hlinted : ∀ r, x.event ≠ .linted n r := fun r hr => hx (by rw [hr]; rfl)
  have hcheck : x.event ≠ .checkCurrent n := fun hr => hx (by rw [hr]; rfl)
  have hlength : ms.length ≤ (ms ++ [x]).length := by simp
  refine ⟨h.document, h.sound, fun hφ => (h.unlinted hφ).snoc hlinted, fun hφ l v hl => ?_,
    fun v hv => (h.outcome v hv).snoc hlinted hlength, fun v hv => ?_⟩
  · rcases getElem?_snoc_cases hl with hold | ⟨-, rfl⟩
    · exact h.unchecked hφ l v hold
    · exact hcheck rfl
  · obtain ⟨c, hc, hstems⟩ := h.checked v hv
    exact ⟨c, hc.snoc hcheck, hstems.snoc hlinted (Nat.le_refl c)⟩

/-- An event that is not the linter's answer for a pass does not bring one. -/
theorem Brings.ne_linted {a : ActivePass} {pe : PassEvent} (h : Brings w a e n pe)
    (hpe : ∀ r, pe ≠ .linted r) (r : Except Failure (Option (List Issue))) : e ≠ .linted n r := by
  rintro rfl
  cases h
  exact hpe r rfl

theorem Brings.ne_checkCurrent {a : ActivePass} {pe : PassEvent} (h : Brings w a e n pe)
    (hpe : ∀ ds, pe ≠ .checkCurrent ds) : e ≠ .checkCurrent n := by
  rintro rfl
  cases h
  exact hpe _ rfl

/-- A step of its own leads the trail of a pass on. -/
theorem PassFollowed.trail_step {a : ActivePass} {pe : PassEvent} {p : Pass}
    (h : PassFollowed ms w n uri d b) (ha : w.passes[n]? = some a) (hbrings : Brings w a e n pe)
    (hp : Pass.Effect a.pass pe p out) : Trail (ms ++ [⟨w, e⟩]) n uri d b p := by
  obtain ⟨a', ha', htrail⟩ := h.pass
  obtain rfl : a = a' := Option.some.inj (ha.symm.trans ha')
  have hlength : (ms ++ [(⟨w, e⟩ : Instant)]).length = ms.length + 1 := by simp
  refine ⟨hp.document_eq.trans htrail.document, hp.sound htrail.sound, fun hφ => ?_,
    fun hφ l v hl => ?_, fun v hv => ?_, fun v hv => ?_⟩
  · obtain ⟨hφ', hpe⟩ := hp.unjudged_before hφ
    exact (htrail.unlinted hφ').snoc (hbrings.ne_linted hpe)
  · obtain ⟨hφ', hpe⟩ := hp.unchecked_before hφ
    rcases getElem?_snoc_cases hl with hold | ⟨-, heq⟩
    · exact htrail.unchecked hφ' l v hold
    · exact hbrings.ne_checkCurrent hpe (congrArg Moment.event heq).symm
  · -- the outcome was there before, or is the answer that comes in now, or a failure
    rw [hlength]
    rcases hp.outcome_cases hv with ⟨hold, hpe⟩ | ⟨settings, config, r, hφ, rfl, rfl⟩ |
      ⟨hφ, hpe, settings, f, rfl⟩
    · exact (htrail.outcome v hold).snoc (hbrings.ne_linted hpe) (Nat.le_succ _)
    · have hpass : a.pass = ⟨d, .linting settings config⟩ := by
        rw [← htrail.document, ← hφ]
      cases hbrings
      rw [htrail.document]
      exact stems_of_answer h.since (htrail.unlinted (by rw [hφ]; rfl)) ha hpass
    · rw [htrail.document]
      exact .inr ⟨(htrail.unlinted hφ).snoc (hbrings.ne_linted hpe), settings, f, rfl⟩
  · -- only the check leads to the phase in which the outcome is shown
    obtain ⟨ds, rfl, hφ, hcurrent⟩ := hp.check_of_fresh hv
    have hstems := htrail.outcome v (by rw [hφ]; rfl)
    have hlinted := hbrings.ne_linted (by simp)
    cases hbrings
    exact ⟨ms.length, h.checked ha hφ hcurrent, hstems.snoc hlinted (Nat.le_refl _)⟩

/-- **What one step preserves**: a pass can be followed from the start to what it shows. -/
theorem PassFollowed.step (h : PassFollowed ms w n uri d b) (heff : Effect w e w' out) :
    PassFollowed (ms ++ [⟨w, e⟩]) w' n uri d b := by
  refine ⟨by have := h.since; simp; omega, h.named, h.entry.step h.since heff, ?_⟩
  obtain ⟨a, ha, htrail⟩ := h.pass
  -- somebody else's step, or one of the pass itself
  rcases heff.pass_cases ha with ⟨a', ha', hsame, hnot⟩ | ⟨pe, p, ha', hbrings, hp⟩
  · exact ⟨a', ha', by rw [hsame]; exact htrail.snoc hnot⟩
  · exact ⟨_, ha', h.trail_step ha hbrings hp⟩

section Courses

variable {root : Bytes} {fetches : Bool}

/-- Documents stand under their own names in all courses. -/
theorem keyed_of_course (h : Course next (blank root fetches) ms w) : Keyed w.documents := by
  induction h with
  | nil => intro u d hd; exact absurd hd (by simp [blank])
  | snoc _ hstep ih =>
    obtain ⟨out, heff⟩ := effect_of_next hstep
    exact heff.keyed ih

/-- What holds of all answers holds of the first ones. -/
theorem LintedIn.take {env : Nat → Surroundings} (h : LintedIn env ms) : LintedIn env (ms.take k) :=
  fun l x hl => h l x (getElem?_of_take hl).2

end Courses

/-! ## Texts that change under the same version -/

end Workspace
end MarkupLint
