import CodeIndex.Proofs.Cache.Use

/-!
# CodeIndex.Proofs.Session.Reachable

The registry in a session.

* `Action.Driven`: an operation moves the registry by events only. `driven_step` says it of all steps,
  so that they keep whatever events keep.
* `Session.tidy_run`: in every state that a session reaches the registry is coherent and settled.
-/

namespace CodeIndex
namespace Action

variable {α β : Type}

def Driven (x : Action α) : Prop :=
  ∀ setup s, ∃ events, (x setup s).state.index.registry = (s.index.registry.run events).1

theorem Apart.driven {x : Action α} (h : Apart x) : Driven x := fun setup s =>
  (h.may_run setup s).1

theorem Still.driven {x : Action α} (h : Still x) : Driven x := fun setup s =>
  ⟨[], by rw [h setup s]; rfl⟩

theorem Driven.bind {x : Action α} {f : α → Action β} (hx : Driven x) (hf : ∀ a, Driven (f a)) :
    Driven (x >>= f) := by
  intro setup s
  obtain ⟨events, hevents⟩ := hx setup s
  rw [bind_run]
  split
  · rename_i a _
    obtain ⟨more, hmore⟩ := hf a setup (x setup s).state
    exact ⟨events ++ more, by rw [hmore, hevents, Registry.run_append_fst]⟩
  · exact ⟨events, hevents⟩

theorem driven_pure (a : α) : Driven (Pure.pure a : Action α) := (still_pure a).driven

theorem driven_modifyIndex {f : Index → Index} (h : ∀ i, (f i).registry = i.registry) :
    Driven (modifyIndex f) := fun _ s => ⟨[], h s.index⟩

/-! ## The cache -/

theorem driven_forget (path : String) : Driven (forget path) :=
  .bind (still_canonical path).driven fun file => .bind (still_cached? file).driven fun _ =>
    .bind (driven_modifyIndex fun _ => rfl) fun _ => driven_pure _

theorem driven_store (file language : String) (grammar : Grammar) (tree : Tree) (content : String) :
    Driven (store file language grammar tree content) :=
  .bind still_state.driven fun _ => .bind (driven_modifyIndex fun _ => rfl) fun _ =>
    .bind (still_emit _).driven fun _ => driven_pure _

theorem driven_parse (file : String) (language content : Option String) :
    Driven (parse file language content) := by
  rw [parse_eq]
  exact .bind (apart_prepare file language content).driven fun p => driven_store _ _ _ _ _

theorem driven_document (path : String) (language content : Option String) :
    Driven (document path language content) := by
  refine .bind (still_canonical path).driven fun file => .bind (still_cached? file).driven fun d => ?_
  cases d with
  | some d => exact .bind (still_emit _).driven fun _ => driven_pure d
  | none => exact driven_parse file language content

theorem driven_reparse (path : String) (language content : Option String) :
    Driven (reparse path language content) :=
  .bind (still_canonical path).driven fun file => driven_parse file language content

theorem driven_of_leads {setup : Setup} {s : State} {i : Index} {use : Use}
    (h : Leads setup s i use) : ∃ events, i.registry = (s.index.registry.run events).1 := by
  cases use with
  | lookup path language content =>
    rw [show i = _ from h]
    exact driven_document path language content setup s
  | parse path language content =>
    rw [show i = _ from h]
    exact driven_reparse path language content setup s
  | forget path =>
    rw [show i = _ from h]
    exact driven_forget path setup s
  | forgetAll =>
    rw [show i = _ from h]
    exact ⟨[], rfl⟩
  | other => exact h.2.2

/-- Every step moves the registry by events. -/
theorem driven_step (step : Step) : Driven step.run := fun _ _ => driven_of_leads (leads_step step)

end Action

namespace Session

theorem state_step (setup : Setup) (session : Session) (step : Step) :
    (session.step setup step).2.1.state =
      (Action.settle setup (step.run setup session.state).state).state := by
  unfold Session.step noteShown
  dsimp only
  split
  · split <;> rfl
  · rfl

/-- The registry is coherent, and nothing is under way in it. -/
structure Tidy (session : Session) : Prop where
  coherent : session.state.index.registry.Coherent
  settled : session.state.index.registry.Settled

theorem tidy_start (disk : Disk) : Tidy (start disk) where
  coherent := Registry.coherent_empty
  settled := Registry.settled_empty

theorem Tidy.step {session : Session} (h : session.Tidy) (setup : Setup) (step : Step) :
    (session.step setup step).2.1.Tidy := by
  obtain ⟨events, hevents⟩ := Action.driven_step step setup session.state
  obtain ⟨-, hregistry, -⟩ := Action.settle_run setup (step.run setup session.state).state
  have hc : (step.run setup session.state).state.index.registry.Coherent := by
    rw [hevents]
    exact h.coherent.run events
  obtain ⟨hcoherent, hsettled⟩ :=
    hc.settled_settle (Action.answerOf setup (step.run setup session.state).state)
  constructor
  · rw [state_step, hregistry]
    exact hcoherent
  · rw [state_step, hregistry]
    exact hsettled

theorem Tidy.run {session : Session} (h : session.Tidy) (setup : Setup) (steps : List Step) :
    (run setup session steps).Tidy := by
  induction steps generalizing session with
  | nil => exact h
  | cons step steps ih => exact ih (h.step setup step)

theorem tidy_run (setup : Setup) (disk : Disk) (steps : List Step) :
    (run setup (start disk) steps).Tidy :=
  (tidy_start disk).run setup steps

theorem settle_run_settled {setup : Setup} {s : State} (h : s.index.registry.Settled) :
    Action.settle setup s = ⟨.ok (), s, []⟩ := by
  have hs := Registry.settle_of_settled h (Action.answerOf setup s)
  show Action.transition (Registry.settle (Action.answerOf setup s)) setup s = _
  rw [Action.transition_run, hs]
  simp

/-- Nothing is settled after a step that has left the index as it was. -/
theorem Tidy.step_eq {session : Session} (h : session.Tidy) {setup : Setup} {step : Step}
    (hi : (step.run setup session.state).state.index = session.state.index) :
    (session.step setup step).2.2 = (step.run setup session.state).effects ∧
      (session.step setup step).2.1.state = (step.run setup session.state).state := by
  have hs : (step.run setup session.state).state.index.registry.Settled := by
    rw [hi]
    exact h.settled
  rw [state_step, settle_run_settled hs]
  refine ⟨?_, rfl⟩
  unfold Session.step
  dsimp only
  rw [settle_run_settled hs, List.append_nil]

end Session
end CodeIndex
