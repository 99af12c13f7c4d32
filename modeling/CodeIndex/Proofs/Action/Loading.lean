import CodeIndex.Proofs.Action.View
import CodeIndex.Proofs.Registry.Settling
import CodeIndex.Session
import Mathlib.Tactic.Set

/-!
# CodeIndex.Proofs.Action.Loading

Loading grammars, as an operation on the state.

* `Apart`: an operation neither sees nor changes the documents, and it moves the registry by events
  only. All ways of loading grammars are such ones.
* `load_loads`: a load in a settled registry does to it what `Registry.Loads` says, and it fails just
  when its call has failed.
-/

namespace CodeIndex

/-- The name in a loader call. -/
def Effect.load? : Effect → Option String
  | .load name => some name
  | _ => none

namespace Action

variable {α β : Type}

/-! ## Loading leaves the documents alone -/

/-- Operations that neither see nor change the documents, and that move the registry by events. -/
def Apart (x : Action α) : Prop := Within .surroundings x

theorem transition_run (f : Registry → Registry × List Effect) (setup : Setup) (s : State) :
    transition f setup s =
      ⟨.ok (), { index := { s.index with registry := (f s.index.registry).1 },
                 world := { s.world with
                   loads := s.world.loads ++ (f s.index.registry).2.filterMap Effect.load? } },
        (f s.index.registry).2⟩ := rfl

theorem apart_transition {f : Registry → Registry × List Effect}
    (h : ∀ r, ∃ events, (f r).1 = (r.run events).1) : Apart (transition f) :=
  ⟨fun _ p => (.ok (), ((f p.1).1,
    { p.2 with loads := p.2.loads ++ (f p.1).2.filterMap Effect.load? }), (f p.1).2),
    fun _ p => ⟨h p.1, rfl⟩, transition_run f⟩

theorem apart_startLoad (language : String) : Apart (startLoad language) :=
  .state (fun _ => rfl) fun _ =>
    .bind (apart_transition fun _ => ⟨[.call language], rfl⟩) fun _ => .pure _

theorem apart_settle : Apart settle :=
  .bind .setup fun _ => .state (fun _ => rfl) fun _ => apart_transition fun _ => ⟨_, rfl⟩

theorem apart_loadFailure? (call : Nat) : Apart (loadFailure? call) := by
  refine .state (fun _ => rfl) fun s => ?_
  split
  · exact .pure _
  · exact .pure none

theorem apart_firstFailure? (calls : List Nat) : Apart (firstFailure? calls) := by
  induction calls with
  | nil => exact .pure none
  | cons c calls ih =>
    refine .bind (apart_loadFailure? c) fun e => ?_
    cases e with
    | some e => exact .pure _
    | none => exact ih

theorem apart_startLoads (languages : List String) : Apart (startLoads languages) := by
  induction languages with
  | nil => exact .pure []
  | cons language languages ih =>
    exact .bind (apart_startLoad language) fun _ => .bind ih fun _ => .pure _

theorem apart_endLoad (call : Nat) : Apart (endLoad call) := by
  refine .bind (apart_loadFailure? call) fun e => ?_
  cases e with
  | some e => exact .fail e
  | none => exact .pure ()

theorem apart_load (language : String) : Apart (load language) :=
  .bind (apart_startLoad language) fun c => .bind apart_settle fun _ => apart_endLoad c

theorem apart_endLoads (calls : List Nat) : Apart (endLoads calls) := by
  induction calls with
  | nil => exact .pure []
  | cons c calls ih =>
    exact .bind (.attempt (apart_endLoad c)) fun _ => .bind ih fun _ => .pure _

theorem apart_loadEach (languages : List String) : Apart (loadEach languages) :=
  .bind (apart_startLoads languages) fun calls => .bind apart_settle fun _ => apart_endLoads calls

theorem apart_failFirst (calls : List Nat) : Apart (failFirst calls) := by
  refine .bind (apart_firstFailure? calls) fun e => ?_
  cases e with
  | some e => exact .fail e
  | none => exact .pure ()

theorem apart_loadTogether (languages : List String) : Apart (loadTogether languages) :=
  .bind (apart_startLoads languages) fun calls => .bind (apart_failFirst calls) fun _ =>
    .bind apart_settle fun _ => apart_failFirst calls

theorem apart_loadCancelled (language : String) : Apart (loadCancelled language) :=
  .bind (apart_startLoad language) fun c => .bind (apart_endLoad c) fun _ =>
    .bind (apart_transition fun _ => ⟨_, rfl⟩) fun _ => .state (fun _ => rfl) fun _ =>
      .bind apart_settle fun _ => .pure _

theorem apart_isLoaded (language : String) : Apart (isLoaded language) :=
  .state (fun _ => rfl) fun _ => .pure _

theorem apart_grammar (language : String) : Apart (grammar language) :=
  .state (fun _ => rfl) fun _ => .ofExcept _

/-! ## One load -/

/-- What the loader answers for a name in a state. -/
def answerOf (setup : Setup) (s : State) (name : String) : Except LoadFault Grammar :=
  setup.engine.load name (s.world.loads.count name)

/-- How a load ends for a call with a status. -/
def loadResult (name : String) : CallStatus → Except Failure Unit
  | .raised fault => .error (.error (.noGrammar name fault))
  | .waiting | .cancelling | .returned | .cancelled => .ok ()

/-- A call does not call the loader itself. -/
theorem call_loads (r : Registry) (language : String) :
    (r.call language).2.filterMap Effect.load? = [] := by
  have h := r.step_does (.call language)
  change Registry.Does r (.call language) (r.call language).1 (r.call language).2 at h
  generalize (r.call language).1 = r' at h
  generalize (r.call language).2 = effects at h ⊢
  cases h <;> rfl

theorem startLoad_run (language : String) (setup : Setup) (s : State) :
    startLoad language setup s =
      ⟨.ok s.index.registry.calls.length,
        { s with index := { s.index with registry := (s.index.registry.call language).1 } },
        (s.index.registry.call language).2⟩ := by
  simp [startLoad, state, transition_run, bind_run, call_loads]

theorem settle_run (setup : Setup) (s : State) :
    (settle setup s).result = .ok () ∧
      (settle setup s).state.index.registry =
        (s.index.registry.settle (answerOf setup s)).1 ∧
      (settle setup s).effects = (s.index.registry.settle (answerOf setup s)).2 :=
  ⟨rfl, rfl, rfl⟩

theorem endLoad_run {call : Nat} {setup : Setup} {s : State} {name : String} {k : Option Nat}
    {status : CallStatus} (hc : s.index.registry.calls[call]? = some ⟨name, k, status⟩) :
    endLoad call setup s = ⟨loadResult name status, s, []⟩ := by
  cases status <;> simp [endLoad, loadFailure?, state, bind_run, hc, loadResult, fail]

theorem load_run {language : String} {setup : Setup} {s : State} {name : String} {k : Option Nat}
    {status : CallStatus} :
    let r := s.index.registry
    let settled := (r.call language).1.settle (answerOf setup s)
    settled.1.calls[r.calls.length]? = some ⟨name, k, status⟩ →
      (load language setup s).result = loadResult name status ∧
      (load language setup s).state.index.registry = settled.1 ∧
      (load language setup s).effects = (r.call language).2 ++ settled.2 := by
  intro r settled hc
  unfold load
  rw [bind_run, startLoad_run]
  dsimp only
  set s₁ : State := { s with index := { s.index with registry := (r.call language).1 } }
  obtain ⟨hok, hregistry, heffects⟩ := settle_run setup s₁
  have hend : endLoad r.calls.length setup (settle setup s₁).state =
      ⟨loadResult name status, (settle setup s₁).state, []⟩ := by
    apply endLoad_run
    rw [hregistry]
    exact hc
  rw [bind_run_ok hok, hend]
  exact ⟨rfl, hregistry, by rw [heffects, List.append_nil]; rfl⟩

/-- A load in a settled registry. -/
theorem load_loads {language name : String} (named : Language.normalize language = name)
    {s : State} (coherent : s.index.registry.Coherent) (settled : s.index.registry.Settled)
    (setup : Setup) :
    ∃ status, s.index.registry.Loads name (answerOf setup s name) status
        (load language setup s).state.index.registry.grammars (load language setup s).effects ∧
      (load language setup s).result = loadResult name status := by
  obtain ⟨k, status, hc, hl⟩ := coherent.loads settled named (answerOf setup s)
  obtain ⟨hresult, hregistry, heffects⟩ := load_run hc
  refine ⟨status, ?_, hresult⟩
  rw [hregistry, heffects]
  exact hl

end Action
end CodeIndex
