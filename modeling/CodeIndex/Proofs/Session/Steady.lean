import CodeIndex.Proofs.Action.Batch
import CodeIndex.Proofs.Cache.History
import CodeIndex.Proofs.Registry.Steady

/-!
# CodeIndex.Proofs.Session.Steady

Sessions over a loader whose answers never change.

* `Setup.LoadsAs`: the answer for a name, however often it was asked for before.
* `Keeps`: an operation keeps the attempts in line with these answers. All steps do.
* `State.Steady`: the registry is steady, and the documents in the cache have been made before.
* `steady_run`: all states of a session are steady.
-/

namespace CodeIndex

/-- The loader answers the same for a name each time. -/
def Setup.LoadsAs (setup : Setup) (answer : String → Except LoadFault Grammar) : Prop :=
  ∀ name earlier, setup.engine.load name earlier = answer name

namespace Action

variable {α β : Type} {setup : Setup} {answer : String → Except LoadFault Grammar}

theorem answerOf_eq (constant : setup.LoadsAs answer) (s : State) : answerOf setup s = answer :=
  funext fun name => constant name _

/-- A coherent registry whose attempts have the answers of the loader stays one. -/
def Keeps (setup : Setup) (answer : String → Except LoadFault Grammar) (x : Action α) : Prop :=
  ∀ s, s.index.registry.Coherent → s.index.registry.Conforms answer →
    (x setup s).state.index.registry.Coherent ∧ (x setup s).state.index.registry.Conforms answer

theorem Still.keeps {x : Action α} (h : Still x) : Keeps setup answer x := by
  intro s coherent conforms
  rw [h setup s]
  exact ⟨coherent, conforms⟩

namespace Keeps

protected theorem bind {x : Action α} {f : α → Action β} (hx : Keeps setup answer x)
    (hf : ∀ a, Keeps setup answer (f a)) : Keeps setup answer (x >>= f) := by
  intro s coherent conforms
  obtain ⟨coherent', conforms'⟩ := hx s coherent conforms
  rw [bind_run]
  split
  · exact hf _ _ coherent' conforms'
  · exact ⟨coherent', conforms'⟩

protected theorem state {f : State → Action β} (h : ∀ s, Keeps setup answer (f s)) :
    Keeps setup answer (Action.state >>= f) :=
  fun s => h s s

protected theorem pure (a : α) : Keeps setup answer (Pure.pure a : Action α) := (still_pure a).keeps

protected theorem attempt {x : Action α} (h : Keeps setup answer x) : Keeps setup answer (attempt x) :=
  h

protected theorem modifyIndex {f : Index → Index} (h : ∀ i, (f i).registry = i.registry) :
    Keeps setup answer (modifyIndex f) := by
  intro s coherent conforms
  change (f s.index).registry.Coherent ∧ (f s.index).registry.Conforms answer
  rw [h]
  exact ⟨coherent, conforms⟩

/-- Events that are no ends of attempts. -/
protected theorem transition {events : List Event} (h : ∀ k o, .finish k o ∉ events) :
    Keeps setup answer (transition fun r => r.run events) := by
  intro s coherent conforms
  refine ⟨coherent.run events, conforms.run coherent fun e he k o hk => ?_⟩
  subst hk
  exact absurd he (h k o)

end Keeps

/-! ## Loading -/

theorem keeps_startLoad (language : String) : Keeps setup answer (startLoad language) := by
  intro s coherent conforms
  rw [startLoad_run]
  exact ⟨coherent.step (.call language),
    conforms.does (Registry.step_does _ (.call language)) (by rintro k o ⟨⟩)⟩

theorem keeps_startLoads (languages : List String) : Keeps setup answer (startLoads languages) := by
  induction languages with
  | nil => exact .pure []
  | cons language languages ih =>
    exact .bind (keeps_startLoad language) fun _ => .bind ih fun _ => .pure _

theorem still_failFirst (calls : List Nat) : Still (failFirst calls) := by
  intro setup s
  rw [failFirst_run]

theorem still_endLoads (calls : List Nat) : Still (endLoads calls) := by
  intro setup s
  rw [endLoads_run]

theorem still_endLoad (call : Nat) : Still (endLoad call) := by
  have asked : Still (loadFailure? call) := fun setup s => by rw [loadFailure?_run]
  refine asked.bind fun e => ?_
  cases e with
  | some e => exact still_fail e
  | none => exact still_pure ()

variable (constant : setup.LoadsAs answer)

include constant

theorem keeps_settle : Keeps setup answer settle := by
  intro s coherent conforms
  rw [(settle_run setup s).2.1, answerOf_eq constant]
  exact ⟨(coherent.settled_settle answer).1, conforms.settle coherent⟩

theorem keeps_load (language : String) : Keeps setup answer (load language) :=
  .bind (keeps_startLoad language) fun c => .bind (keeps_settle constant) fun _ =>
    (still_endLoad c).keeps

theorem keeps_loadTogether (languages : List String) : Keeps setup answer (loadTogether languages) :=
  .bind (keeps_startLoads languages) fun calls => .bind (still_failFirst calls).keeps fun _ =>
    .bind (keeps_settle constant) fun _ => (still_failFirst calls).keeps

theorem keeps_loadEach (languages : List String) : Keeps setup answer (loadEach languages) :=
  .bind (keeps_startLoads languages) fun calls => .bind (keeps_settle constant) fun _ =>
    (still_endLoads calls).keeps

theorem keeps_loadCancelled (language : String) : Keeps setup answer (loadCancelled language) :=
  .bind (keeps_startLoad language) fun c => .bind (still_endLoad c).keeps fun _ =>
    .bind (.transition (by simp)) fun _ => .state fun _ =>
      .bind (keeps_settle constant) fun _ => .pure _

/-! ## Documents and steps -/

theorem keeps_prepare (file : String) (language content : Option String) :
    Keeps setup answer (prepare file language content) := by
  refine .bind ?_ fun language => .bind (keeps_load constant language) fun _ =>
    (still_finish file content language).keeps
  unfold languageOf
  split
  · exact .pure _
  · exact (still_fail _).keeps

theorem keeps_parse (file : String) (language content : Option String) :
    Keeps setup answer (parse file language content) := by
  rw [parse_eq]
  exact .bind (keeps_prepare constant file language content) fun p => .state fun _ =>
    .bind (.modifyIndex fun _ => rfl) fun _ => .bind (still_emit _).keeps fun _ => .pure _

theorem keeps_document (path : String) (language content : Option String) :
    Keeps setup answer (document path language content) := by
  refine .bind (still_canonical path).keeps fun file => .bind (still_cached? file).keeps fun d => ?_
  cases d with
  | some d => exact .bind (still_emit _).keeps fun _ => .pure d
  | none => exact keeps_parse constant file language content

theorem keeps_reparse (path : String) (language content : Option String) :
    Keeps setup answer (reparse path language content) :=
  .bind (still_canonical path).keeps fun file => keeps_parse constant file language content

/-- What the index is used for decides what becomes of the registry. -/
theorem keeps_of_leads {s : State} {i : Index} {use : Use} (h : Leads setup s i use)
    (hu : use ≠ .other) (coherent : s.index.registry.Coherent)
    (conforms : s.index.registry.Conforms answer) :
    i.registry.Coherent ∧ i.registry.Conforms answer := by
  cases use with
  | lookup path language content =>
    rw [show i = _ from h]
    exact keeps_document constant path language content s coherent conforms
  | parse path language content =>
    rw [show i = _ from h]
    exact keeps_reparse constant path language content s coherent conforms
  | forget path =>
    have forgotten : Keeps setup answer (Action.forget path) :=
      .bind (still_canonical path).keeps fun file => .bind (still_cached? file).keeps fun _ =>
        .bind (.modifyIndex fun _ => rfl) fun _ => .pure _
    rw [show i = _ from h]
    exact forgotten s coherent conforms
  | forgetAll =>
    rw [show i = _ from h]
    exact ⟨coherent, conforms⟩
  | other => exact absurd rfl hu

theorem keeps_request_run (r : Request) : Keeps setup answer r.run := by
  cases r with
  | loadLanguages languages => exact .bind (keeps_loadTogether constant languages) fun _ => .pure _
  | reparse | captures | elements | enclosing | comparison =>
    exact fun s => keeps_of_leads constant (leads_request_run _) nofun

theorem keeps_request (name : String) (arguments : Table Value) (seconds : Float) :
    Keeps setup answer (request name arguments seconds) := by
  refine .bind ?_ fun a => (aside_afterAnswer name arguments seconds a).still.keeps
  unfold Action.answer
  split
  · exact .pure _
  · refine .bind (.attempt ?_) fun result => ?_
    · unfold handle
      split
      · exact keeps_request_run constant _
      · exact (still_fail _).keeps
    · split
      · exact .pure _
      · exact .bind (still_emit _).keeps fun _ => .pure _
      · exact (still_fail _).keeps

theorem keeps_step (step : Step) : Keeps setup answer step.run := by
  cases step with
  | document | reparse | forget | forgetAll | captures | elements | enclosing | comparison =>
    exact fun s => keeps_of_leads constant (leads_step _) nofun
  | request name arguments seconds =>
    exact .bind (keeps_request constant name arguments seconds) fun _ => .pure _
  | function tool given =>
    exact .bind (.bind (keeps_request constant _ _ _) fun _ => .pure _) fun _ => .pure _
  | entry path =>
    refine .bind (still_entry path).keeps fun d => ?_
    cases d <;> exact .pure _
  | isCached path => exact .bind (still_isCached path).keeps fun _ => .pure _
  | load language => exact .bind (keeps_load constant language) fun _ => .pure _
  | loadEach languages => exact .bind (keeps_loadEach constant languages) fun _ => .pure _
  | loadCancelled language => exact .bind (keeps_loadCancelled constant language) fun _ => .pure _
  | isLoaded language => exact .bind (.state fun _ => .pure _) fun _ => .pure _
  | grammar language => exact .bind (.state fun _ => (still_ofExcept _).keeps) fun _ => .pure _
  | write path written =>
    exact .bind still_setup.keeps fun _ => .bind (still_modifyWorld _).keeps fun _ => .pure _
  | delete path =>
    exact .bind still_setup.keeps fun _ => .bind (still_modifyWorld _).keeps fun _ => .pure _
  | describe tool => exact .pure _
  | commandLine arguments => exact .bind (still_commandLine arguments).keeps fun _ => .pure _

end Action

/-! ## Sessions -/

/-- The registry is steady, and every document in the cache has been made before. -/
structure State.Steady (answer : String → Except LoadFault Grammar) (s : State) : Prop where
  registry : s.index.registry.Steady answer
  serial : ∀ file d, s.index.cache.get? file = some d → d.serial < s.index.made

variable {setup : Setup} {answer : String → Except LoadFault Grammar}

theorem Session.conforms_run (constant : setup.LoadsAs answer) {session : Session}
    (coherent : session.state.index.registry.Coherent)
    (conforms : session.state.index.registry.Conforms answer) (steps : List Step) :
    (session.run setup steps).state.index.registry.Conforms answer := by
  induction steps generalizing session with
  | nil => exact conforms
  | cons step steps ih =>
    obtain ⟨coherent', conforms'⟩ :=
      Action.keeps_step constant step session.state coherent conforms
    have settled := Action.keeps_settle constant _ coherent' conforms'
    rw [← Session.state_step] at settled
    exact ih settled.1 settled.2

/-- Every state of a session is steady, if the loader never changes its answers. -/
theorem Session.steady_run (constant : setup.LoadsAs answer) (disk : Disk) (steps : List Step) :
    ((Session.start disk).run setup steps).state.Steady answer := by
  have tidy := Session.tidy_run setup disk steps
  have recorded := (recorded_start disk).run setup steps
  have conforms := Session.conforms_run constant (tidy_start disk).coherent Registry.conforms_empty steps
  refine ⟨⟨tidy.coherent, tidy.settled, conforms⟩, fun file d hd => ?_⟩
  rw [recorded.entry] at hd
  obtain ⟨newer, older, hpast, -, -⟩ := latest?_eq_some_iff.mp hd
  refine (List.pairwise_cons.mp recorded.serials).1 d.serial ?_
  rw [hpast]
  simp [Change.serial?]

end CodeIndex
