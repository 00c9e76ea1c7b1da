/-
  What a message leaves to do.

  Most of the state of a server has nothing to do with which documents are linted when. `SameWork`
  says that a step leaves alone what has: the documents, the passes, the timers that are pending and
  the runs. Taking in a message does, and shows no diagnostics (`receive_spec`). What it leaves to
  do is in order, as `TasksOK` lays down: whoever changes a document sets its timer afterwards,
  whoever changes the settings for all documents sets all timers, and nothing is sent but the
  answer.
-/
import MarkupLint.Proofs.PassCourse
import MarkupLint.Server.Step

namespace MarkupLint

/-! ## Messages that show diagnostics -/

/-- The document whose diagnostics a message shows, and the version that the message carries. -/
def ServerMessage.shown? : ServerMessage → Option (String × Int)
  | .notification "textDocument/publishDiagnostics" params =>
    match params.get? "uri", params.get? "version" with
    | some (.str uri), some (.num version) => version.toInt?.map (uri, ·)
    | _, _ => none
  | _ => none

def ServerOutput.shown? : ServerOutput → Option (String × Int)
  | .send m => m.shown?
  | .log _ | .refused _ => none

/-- The documents whose diagnostics are shown, with the versions. -/
def shown (out : List ServerOutput) : List (String × Int) := out.filterMap (·.shown?)

theorem shown_append (out out' : List ServerOutput) :
    shown (out ++ out') = shown out ++ shown out' :=
  List.filterMap_append

theorem shown_singleton (o : ServerOutput) : shown [o] = o.shown?.toList := by
  unfold shown
  cases h : o.shown? with
  | none => rw [List.filterMap_cons_none h]; rfl
  | some x => rw [List.filterMap_cons_some h]; rfl

/-- The message is an answer to a request of the client. -/
def ServerMessage.isAnswer : ServerMessage → Bool
  | .result .. | .error .. => true
  | .request .. | .notification .. => false

/-- A failure is answered with an error. -/
theorem ServerMessage.isAnswer_ofFailure (id : RequestId) (f : Failure) :
    (ServerMessage.ofFailure id f).isAnswer = true := by
  unfold ofFailure
  split <;> rfl

/-- Answers show no diagnostics. -/
theorem ServerMessage.shown?_of_isAnswer {m : ServerMessage} (h : m.isAnswer = true) :
    m.shown? = none := by
  cases m with
  | result _ _ | error _ _ _ | request _ _ _ => rfl
  | notification _ _ => exact absurd h (by simp [isAnswer])

/-! ## Tasks -/

/-- The task changes the entry of a document in the table. -/
def ServerTask.Touches (uri : String) : ServerTask → Prop
  | .openDocument u _ _ _ | .changeDocument u _ _ | .dropDocument u => u = uri
  | _ => False

/-- A timer of the document is among what is left to do. -/
def WillSchedule (uri : String) (ts : List ServerTask) : Prop :=
  ∃ trigger, .schedule uri trigger ∈ ts

/-- The settings for all documents stay as they are in what is left to do. -/
def NoConfigure (ts : List ServerTask) : Prop := ∀ config, .configure config ∉ ts

/-- What has to be done after a task. Nothing is sent but answers. -/
def ServerTask.FollowedBy (ds : Documents) (ts : List ServerTask) : ServerTask → Prop
  | .openDocument u _ _ _ | .changeDocument u _ _ => WillSchedule u ts ∧ NoConfigure ts
  | .dropDocument _ => NoConfigure ts
  | .cancelLinting u => .dropDocument u ∈ ts
  | .configure _ => ∀ u d, ds.get? u = some d → WillSchedule u ts
  | .stopTimers => .cancelWork ∈ ts
  | .send m => m.isAnswer = true
  | .setDebounce _ | .forgetSettings _ | .schedule _ _ => True
  | .noteShutdown | .cancelWork | .disconnect => True

/-- Everything that is left to do is followed by what has to be done after it. -/
inductive TasksOK (ds : Documents) : List ServerTask → Prop where
  | nil : TasksOK ds []
  | cons {t : ServerTask} {ts : List ServerTask} : t.FollowedBy ds ts → TasksOK ds ts →
      TasksOK ds (t :: ts)

/-- Where the settings stay as they are, it does not matter which documents are open. -/
theorem TasksOK.of_noConfigure {ds ds' : Documents} {ts : List ServerTask} (h : TasksOK ds ts)
    (hts : NoConfigure ts) : TasksOK ds' ts := by
  induction h with
  | nil => exact .nil
  | @cons t ts ht _ ih =>
    refine .cons ?_ (ih fun c hc => hts c (List.mem_cons_of_mem _ hc))
    cases t with
    | configure c => exact absurd (List.mem_cons_self ..) (hts c)
    | _ => exact ht

/-- Timers alone need nothing after them, and neither does an answer at the end. -/
theorem tasksOK_schedules (ds : Documents) (us : List String) (trigger : Trigger) :
    TasksOK ds (us.map (.schedule · trigger)) := by
  induction us with
  | nil => exact .nil
  | cons u us ih => exact .cons trivial ih

/-- The answer comes last, so that everything is still followed by what followed it. -/
theorem TasksOK.concat_send {ds : Documents} {ts : List ServerTask} (h : TasksOK ds ts)
    {m : ServerMessage} (hm : m.isAnswer = true) : TasksOK ds (ts ++ [.send m]) := by
  have hsub : ∀ {t ts}, t ∈ ts → t ∈ ts ++ [ServerTask.send m] := List.mem_append_left _
  induction h with
  | nil => exact .cons hm .nil
  | @cons t ts ht _ ih =>
    -- an answer is not a change of the settings
    have hno : NoConfigure ts → NoConfigure (ts ++ [.send m]) := by
      intro h c hc
      rcases List.mem_append.mp hc with hc | hc
      · exact h c hc
      · exact absurd (List.mem_singleton.mp hc) (by simp)
    refine .cons ?_ ih
    cases t with
    | openDocument u _ _ _ => exact ⟨ht.1.imp fun _ => hsub, hno ht.2⟩
    | changeDocument u _ _ => exact ⟨ht.1.imp fun _ => hsub, hno ht.2⟩
    | dropDocument u => exact hno ht
    | cancelLinting u => exact hsub ht
    | configure c => exact fun u d hd => (ht u d hd).imp fun _ => hsub
    | stopTimers => exact hsub ht
    | send m' => exact ht
    | _ => trivial

/-- What is left to send are answers. -/
theorem TasksOK.isAnswer {ds : Documents} {ts : List ServerTask} (h : TasksOK ds ts)
    {m : ServerMessage} (hm : .send m ∈ ts) : m.isAnswer = true := by
  induction h with
  | nil => exact absurd hm List.not_mem_nil
  | cons ht _ ih =>
    rcases List.mem_cons.mp hm with rfl | hm
    · exact ht
    · exact ih hm

/-! ## Messages -/

namespace Server

variable {s s' : Server} {fs : FileSystem}

/-- Documents, passes, timers and runs stay as they are. -/
structure SameWork (s s' : Server) : Prop where
  documents : s'.workspace.documents = s.workspace.documents
  passes : s'.workspace.passes = s.workspace.passes
  pending : s'.pending = s.pending
  runs : s'.runs = s.runs
  running : s'.running = s.running
  isClosed : s'.isClosed = s.isClosed

theorem SameWork.refl (s : Server) : SameWork s s := ⟨rfl, rfl, rfl, rfl, rfl, rfl⟩

theorem SameWork.trans {s t u : Server} (h : SameWork s t) (k : SameWork t u) : SameWork s u :=
  ⟨k.documents.trans h.documents, k.passes.trans h.passes, k.pending.trans h.pending,
    k.runs.trans h.runs, k.running.trans h.running, k.isClosed.trans h.isClosed⟩

/-- A message that shows no diagnostics shows none when it is sent, if it is. -/
theorem shown_post_of_none (s : Server) {m : ServerMessage} (h : m.shown? = none) :
    shown (s.post m) = [] := by
  unfold post
  split
  · rw [shown_singleton, ServerOutput.shown?, h]
    rfl
  · rfl

theorem shown_logMessage (s : Server) (type : Int) (text : String) :
    shown (s.logMessage type text) = [] := shown_post_of_none s rfl

/-- Handling a message in the first place does no work on documents and shows no diagnostics, and
    what it leaves to do is in order. -/
structure HandledOK (s : Server) (h : Handled) : Prop where
  same : SameWork s h.server
  output : shown h.output = []
  tasks : TasksOK s.workspace.documents h.tasks

/-- To handle a message is, for the most part, to say what is left to do. -/
theorem handledOK_of_tasks {ts : List ServerTask} (h : TasksOK s.workspace.documents ts) :
    HandledOK s { server := s, tasks := ts } := ⟨.refl s, rfl, h⟩

/-- A message that fails leaves nothing to do. -/
theorem handledOK_failed (f : Failure) (h : SameWork s s') : HandledOK s (.failed s' f) :=
  ⟨h, rfl, .nil⟩

/-- Parameters that cannot be read fail, and all others go to the handler. -/
theorem handledOK_withParams {α : Type} {c : Codec α} {params : Option Json} {f : α → Handled}
    (h : ∀ a, HandledOK s (f a)) : HandledOK s (s.withParams c params f) := by
  unfold withParams
  split
  · exact handledOK_failed _ (.refl s)
  · split
    · exact h _
    · exact handledOK_failed _ (.refl s)

/-- The open documents are those in the table. -/
theorem mem_uris_iff (ds : Documents) (u : String) : u ∈ ds.uris ↔ ∃ d, ds.get? u = some d :=
  (Table.mem_sorted_names ds u).trans (Table.mem_names_iff ds u)

/-- Each of them gets a timer when all are to be linted again. -/
theorem willSchedule_revalidation (s : Server) (trigger : Trigger) {u : String} {d : Document}
    (h : s.workspace.documents.get? u = some d) : WillSchedule u (s.revalidation trigger) :=
  ⟨trigger, List.mem_map.mpr ⟨u, (mem_uris_iff _ u).mpr ⟨d, h⟩, rfl⟩⟩

/-- A new text is stored, and then the timer is set. -/
theorem handledOK_update (uri text : String) (version : Option Int) (trigger : Trigger) :
    HandledOK s (s.update uri text version trigger) := by
  unfold update
  split
  · exact handledOK_failed _ (.refl s)
  · exact handledOK_of_tasks
      (.cons ⟨⟨trigger, by simp⟩, by simp [NoConfigure]⟩ (.cons trivial .nil))

/-- One lemma for each handler. A document that is opened is stored before its timer is set. -/
theorem handledOK_onOpen (p : DidOpen) : HandledOK s (s.onOpen p) :=
  handledOK_of_tasks (.cons ⟨⟨.opened, by simp⟩, by simp [NoConfigure]⟩ (.cons trivial .nil))

theorem handledOK_onChange (p : DidChange) : HandledOK s (s.onChange p) := by
  unfold onChange
  split
  · exact handledOK_of_tasks .nil
  · exact handledOK_update _ _ _ _

/-- A save without a text leaves the document as it is. -/
theorem handledOK_onSave (p : DidSave) : HandledOK s (s.onSave p) := by
  unfold onSave
  split
  · exact handledOK_update _ _ _ _
  · exact handledOK_of_tasks (.cons trivial .nil)

/-- Linting is given up before the document goes. -/
theorem handledOK_onClose (p : DidClose) : HandledOK s (s.onClose p) :=
  handledOK_of_tasks
    (.cons (List.mem_cons_self ..)
      (.cons (by simp [ServerTask.FollowedBy, NoConfigure]) (.cons trivial .nil)))

/-- After a change of the settings all timers are set. -/
theorem handledOK_onConfiguration (p : DidChangeConfiguration) :
    HandledOK s (s.onConfiguration p) :=
  handledOK_of_tasks
    (.cons trivial
      (.cons (fun _ _ hd => willSchedule_revalidation s _ hd) (tasksOK_schedules _ _ _)))

/-- Changes of files that matter set all timers, too, and say so in the log. -/
theorem handledOK_onFiles (p : DidChangeFiles) : HandledOK s (s.onFiles p) := by
  unfold onFiles
  split
  · exact ⟨.refl s, shown_logMessage s _ _, tasksOK_schedules _ _ _⟩
  · exact handledOK_of_tasks .nil

theorem handledOK_onShutdown : HandledOK s s.onShutdown :=
  handledOK_of_tasks (.cons trivial (.cons (List.mem_cons_self ..) (.cons trivial .nil)))

theorem handledOK_onExit : HandledOK s s.onExit :=
  handledOK_of_tasks (.cons (List.mem_cons_self ..) (.cons trivial (.cons trivial .nil)))

/-- A delay has nothing to do with documents. -/
theorem sameWork_setDebounce (delay : Int) : SameWork s (s.setDebounce delay) := by
  unfold setDebounce
  split
  · exact ⟨rfl, rfl, rfl, rfl, rfl, rfl⟩
  · exact .refl s

end Server

/-- Starting up leaves documents and passes alone. -/
theorem Workspace.startUp_eq_ok {w w' : Workspace} {p : InitializeParams}
    (h : w.startUp p = .ok w') : w'.documents = w.documents ∧ w'.passes = w.passes := by
  unfold startUp at h
  by_cases huri : rootUri p = ""
  · rw [if_pos huri] at h
    obtain rfl := Except.ok.inj h
    split <;> exact ⟨rfl, rfl⟩
  · rw [if_neg huri] at h
    cases hpath : (Uri.path (Bytes.ofString (rootUri p))).mapError Failure.ofUriError with
    | error f => rw [hpath] at h; exact absurd h nofun
    | ok path =>
      rw [hpath] at h
      obtain rfl := Except.ok.inj h
      split <;> exact ⟨rfl, rfl⟩

namespace Server

variable {s s' : Server} {fs : FileSystem}

/-- Starting up may fail, but not before the delay has been set. -/
theorem handledOK_onInitialize (p : InitializeParams) : HandledOK s (s.onInitialize p) := by
  have hset := sameWork_setDebounce (s := s) ((p.options.map (·.lintDebounce)).getD 0)
  simp only [onInitialize]
  split
  · rename_i w hw
    obtain ⟨hd, hp⟩ := Workspace.startUp_eq_ok hw
    exact ⟨hset.trans ⟨hd, hp, rfl, rfl, rfl, rfl⟩, rfl, .nil⟩
  · exact handledOK_failed _ (hset.trans ⟨rfl, rfl, rfl, rfl, rfl, rfl⟩)

/-- To ask for notifications sends a request at most. -/
theorem register_spec (s : Server) (rs : List Json) :
    SameWork s (s.register rs).1 ∧ shown (s.register rs).2 = [] := by
  unfold register
  split
  · exact ⟨.refl s, rfl⟩
  · refine ⟨⟨rfl, rfl, rfl, rfl, rfl, rfl⟩, ?_⟩
    rw [shown_append, shown_post_of_none s rfl]
    split <;> rfl

theorem handledOK_onInitialized : HandledOK s (s.onInitialized fs) := by
  refine ⟨?_, (register_spec _ _).2, .nil⟩
  simp only [onInitialized, Handled.ofReaction]
  -- the watcher is set up before the client is asked, or not at all
  split
  · exact (register_spec _ _).1
  · have hwatched : SameWork s { s with watcher := some (.ofRoot fs s.workspace.root) } :=
      ⟨rfl, rfl, rfl, rfl, rfl, rfl⟩
    exact hwatched.trans (register_spec _ _).1

/-- **Every method of the protocol** is handled in order, and so are those that are none. -/
theorem handledOK_handle (fs : FileSystem) (method : String) (params : Option Json)
    (isRequest : Bool) : HandledOK s (s.handle fs method params isRequest) := by
  unfold handle
  split
  · exact handledOK_withParams handledOK_onInitialize
  · exact handledOK_onInitialized
  · exact handledOK_onShutdown
  · exact handledOK_onExit
  · exact handledOK_withParams handledOK_onOpen
  · exact handledOK_withParams handledOK_onChange
  · exact handledOK_withParams handledOK_onSave
  · exact handledOK_withParams handledOK_onClose
  · exact ⟨.refl s, rfl, .nil⟩
  · exact handledOK_withParams fun _ => ⟨.refl s, rfl, .nil⟩
  · exact handledOK_withParams handledOK_onConfiguration
  · exact handledOK_withParams handledOK_onFiles
  · exact handledOK_withParams fun _ => ⟨.refl s, shown_logMessage s _ _, .nil⟩
  · split
    · exact handledOK_failed _ (.refl s)
    · exact ⟨.refl s, rfl, .nil⟩

/-- A reply is kept for the call that waits for it. -/
theorem sameWork_takeReply (id : RequestId) (answer : Except Failure Json) :
    SameWork s (s.takeReply id answer) ∧ (s.takeReply id answer).tasks = s.tasks := by
  unfold takeReply
  split
  · exact ⟨.refl s, rfl⟩
  · split
    · exact ⟨.refl s, rfl⟩
    · exact ⟨⟨rfl, rfl, rfl, rfl, rfl, rfl⟩, rfl⟩

/-- Taking in a message does no work on documents and shows no diagnostics, and leaves to do what is
    in order. -/
theorem receive_spec (hidle : s.tasks = []) (fs : FileSystem) (m : ClientMessage) :
    SameWork s (s.receive fs m).1 ∧ shown (s.receive fs m).2 = [] ∧
      TasksOK s.workspace.documents (s.receive fs m).1.tasks := by
  cases m with
  | request id method params =>
    have h := handledOK_handle (s := s) fs method params true
    -- a request is answered after everything else has been done
    refine ⟨h.same.trans ⟨rfl, rfl, rfl, rfl, rfl, rfl⟩, h.output, h.tasks.concat_send ?_⟩
    split
    · rfl
    · exact ServerMessage.isAnswer_ofFailure _ _
  | notification method params =>
    have h := handledOK_handle (s := s) fs method params false
    refine ⟨h.same.trans ⟨rfl, rfl, rfl, rfl, rfl, rfl⟩, ?_, h.tasks⟩
    simp only [receive]
    rw [shown_append, h.output]
    split <;> rfl
  | reply id answer =>
    obtain ⟨hsame, htasks⟩ := sameWork_takeReply (s := s) id answer
    refine ⟨hsame, rfl, ?_⟩
    rw [show (s.receive fs (.reply id answer)).1 = s.takeReply id answer from rfl, htasks, hidle]
    exact .nil

end Server
end MarkupLint
