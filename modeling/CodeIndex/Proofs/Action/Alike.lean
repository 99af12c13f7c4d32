import CodeIndex.Proofs.Session.Reachable
import CodeIndex.Proofs.Tool.Boundary
import Mathlib.Data.List.Forall2

/-!
# CodeIndex.Proofs.Action.Alike

Two runs under setups that count tokens, report requests and log differently.

* `Setup.Agrees`, `State.Agrees`: what the two runs have in common at their start. Each setup has an
  encoding; which vocabularies have been taken does not matter.
* `Run.Alike`: what they have in common at their end: the same failure or values in a relation, states
  that agree again, and effects that differ in vocabularies and reports only. In `Run.AlikeIf` the results
  are compared under a condition.
* `Related`, `RelatedIf`: operations whose runs are alike. `Related.bind` and its companions put them
  together.
* `Blind`: an operation that is related to itself with the same values. All that is done with grammars,
  files and documents is blind.
-/

namespace CodeIndex

variable {α β γ δ : Type}

/-! ## What two runs have in common -/

/-- The same program, paths and blocks, with an encoding for each. -/
structure Setup.Agrees (a b : Setup) : Prop where
  engine : a.engine = b.engine
  directory : a.directory = b.directory
  blocks : a.blocks = b.blocks
  left : ∃ e, a.encoding? = some e
  right : ∃ e, b.encoding? = some e

structure State.Agrees (s t : State) : Prop where
  index : s.index = t.index
  disk : s.world.disk = t.world.disk
  loads : s.world.loads = t.world.loads

namespace State.Agrees

@[refl] protected theorem refl (s : State) : s.Agrees s := ⟨rfl, rfl, rfl⟩

@[symm] protected theorem symm {s t : State} (h : s.Agrees t) : t.Agrees s :=
  ⟨h.index.symm, h.disk.symm, h.loads.symm⟩

protected theorem trans {s t u : State} (h : s.Agrees t) (h' : t.Agrees u) : s.Agrees u :=
  ⟨h.index.trans h'.index, h.disk.trans h'.disk, h.loads.trans h'.loads⟩

end State.Agrees

/-- The same event, but for the number of tokens. -/
def Usage.Agrees (u v : Usage) : Prop := { u with tokens := v.tokens } = v

/-- Neither comes from counting nor goes to a sink: file reads, loader calls, outputs that are seen, and all
other log lines. -/
def Effect.isPlain : Effect → Bool
  | .vocabulary _ | .event _ | .log (.usage _) => false
  | .log _ | .read _ | .load _ | .shown _ => true

def Effect.isReport (effect : Effect) : Bool := effect.usage?.isSome

/-- The plain effects are the same, in the same order. The events that are reported differ in numbers of
tokens only, and each setup hands them to its own sink. -/
structure Effects.Agree (a b : Setup) (es fs : List Effect) : Prop where
  plain : es.filter Effect.isPlain = fs.filter Effect.isPlain
  reports : ∃ us vs, List.Forall₂ Usage.Agrees us vs ∧
    es.filter Effect.isReport = us.flatMap a.delivered ∧
    fs.filter Effect.isReport = vs.flatMap b.delivered

/-- The same failure, or values in a relation. -/
inductive Ending (R : α → β → Prop) : Except Failure α → Except Failure β → Prop where
  | failure (e : Failure) : Ending R (.error e) (.error e)
  | value {x : α} {y : β} : R x y → Ending R (.ok x) (.ok y)

theorem Ending.eq {x y : Except Failure α} (h : Ending Eq x y) : x = y := by
  cases h with
  | failure e => rfl
  | value h => rw [h]

structure Run.Alike (a b : Setup) (R : α → β → Prop) (x : Run α) (y : Run β) : Prop where
  result : Ending R x.result y.result
  state : x.state.Agrees y.state
  effects : Effects.Agree a b x.effects y.effects

structure Run.AlikeIf (taken : Prop) (a b : Setup) (R : α → β → Prop) (x : Run α) (y : Run β) :
    Prop where
  result : taken → Ending R x.result y.result
  state : x.state.Agrees y.state
  effects : Effects.Agree a b x.effects y.effects

namespace Effects

variable {a b : Setup} {es fs : List Effect}

theorem filter_isReport_eq_nil (h : ∀ effect ∈ es, effect.usage? = none) :
    es.filter Effect.isReport = [] := by
  rw [List.filter_eq_nil_iff]
  intro effect hm
  simp [Effect.isReport, h effect hm]

namespace Agree

theorem append {es' fs' : List Effect} (h : Agree a b es fs) (h' : Agree a b es' fs') :
    Agree a b (es ++ es') (fs ++ fs') := by
  obtain ⟨us, vs, hu, hes, hfs⟩ := h.reports
  obtain ⟨us', vs', hu', hes', hfs'⟩ := h'.reports
  refine ⟨?_, us ++ us', vs ++ vs', List.rel_append hu hu', ?_, ?_⟩
  · rw [List.filter_append, List.filter_append, h.plain, h'.plain]
  · rw [List.filter_append, List.flatMap_append, hes, hes']
  · rw [List.filter_append, List.flatMap_append, hfs, hfs']

/-- Effects without reports agree with themselves. -/
theorem same (h : ∀ effect ∈ es, effect.usage? = none) : Agree a b es es :=
  ⟨rfl, [], [], .nil, filter_isReport_eq_nil h, filter_isReport_eq_nil h⟩

protected theorem nil : Agree a b [] [] := same (by simp)

end Agree
end Effects

namespace Action

variable {a b : Setup} {R : α → β → Prop} {T : γ → δ → Prop}

/-- Runs under two setups, from states that agree, are alike. -/
def Related (a b : Setup) (R : α → β → Prop) (x : Action α) (y : Action β) : Prop :=
  ∀ s t, s.Agrees t → (x a s).Alike a b R (y b t)

/-- The same, but the results are alike under a condition only. -/
def RelatedIf (taken : Prop) (a b : Setup) (R : α → β → Prop) (x : Action α) (y : Action β) : Prop :=
  ∀ s t, s.Agrees t → (x a s).AlikeIf taken a b R (y b t)

def Blind (a b : Setup) (x : Action α) : Prop := Related a b Eq x x

/-! ## Putting operations together -/

/-- A value that is computed from the value of an operation. -/
theorem bind_pure_run (x : Action α) (f : α → γ) (setup : Setup) (s : State) :
    (x >>= fun u => Pure.pure (f u)) setup s =
      ⟨(x setup s).result.map f, (x setup s).state, (x setup s).effects⟩ := by
  rw [bind_run]
  cases (x setup s).result <;> simp [Except.map]

namespace RelatedIf

variable {taken : Prop}

theorem of_related {x : Action α} {y : Action β} (h : Related a b R x y) :
    RelatedIf taken a b R x y := fun s t hs =>
  ⟨fun _ => (h s t hs).result, (h s t hs).state, (h s t hs).effects⟩

theorem related {x : Action α} {y : Action β} (h : RelatedIf taken a b R x y) (ht : taken) :
    Related a b R x y := fun s t hs =>
  ⟨(h s t hs).result ht, (h s t hs).state, (h s t hs).effects⟩

/-- After operations that are alike in any case, the condition is about the rest. -/
protected theorem bind {x : Action α} {y : Action β} {f : α → Action γ} {g : β → Action δ}
    (h : Related a b R x y) (hf : ∀ u v, R u v → RelatedIf taken a b T (f u) (g v)) :
    RelatedIf taken a b T (x >>= f) (y >>= g) := by
  intro s t hs
  have first := h s t hs
  have ending := first.result
  cases hx : (x a s).result with
  | error e =>
    cases hy : (y b t).result <;> rw [hx, hy] at ending <;> cases ending
    rw [bind_run_error hx, bind_run_error hy]
    exact ⟨fun _ => .failure e, first.state, first.effects⟩
  | ok u =>
    cases hy : (y b t).result <;> rw [hx, hy] at ending <;> cases ending
    rename_i v hr
    have next := hf u v hr _ _ first.state
    rw [bind_run_ok hx, bind_run_ok hy]
    exact ⟨next.result, next.state, first.effects.append next.effects⟩

protected theorem map {x : Action α} {y : Action β} {f : α → γ} {g : β → δ}
    (h : RelatedIf taken a b R x y) (hf : ∀ u v, R u v → T (f u) (g v)) :
    RelatedIf taken a b T (x >>= fun u => Pure.pure (f u)) (y >>= fun v => Pure.pure (g v)) := by
  intro s t hs
  obtain ⟨result, state, effects⟩ := h s t hs
  rw [bind_pure_run, bind_pure_run]
  refine ⟨fun ht => ?_, state, effects⟩
  have ending := result ht
  dsimp only
  generalize (x a s).result = r, (y b t).result = r' at ending
  cases ending with
  | failure e => exact .failure e
  | value hr => exact .value (hf _ _ hr)

end RelatedIf

namespace Related

protected theorem pure {x : α} {y : β} (h : R x y) : Related a b R (Pure.pure x) (Pure.pure y) :=
  fun _ _ hs => ⟨.value h, hs, .nil⟩

protected theorem fail (e : Failure) : Related a b R (fail e) (fail e) :=
  fun _ _ hs => ⟨.failure e, hs, .nil⟩

protected theorem bind {x : Action α} {y : Action β} {f : α → Action γ} {g : β → Action δ}
    (h : Related a b R x y) (hf : ∀ u v, R u v → Related a b T (f u) (g v)) :
    Related a b T (x >>= f) (y >>= g) :=
  (RelatedIf.bind h fun u v huv => .of_related (hf u v huv)).related trivial

protected theorem attempt {x : Action α} {y : Action β} (h : Related a b R x y) :
    Related a b (Ending R) (attempt x) (attempt y) := by
  intro s t hs
  have run := h s t hs
  exact ⟨.value run.result, run.state, run.effects⟩

protected theorem setup {f : Setup → Action α} {g : Setup → Action β}
    (h : Related a b R (f a) (g b)) : Related a b R (Action.setup >>= f) (Action.setup >>= g) :=
  h

protected theorem mono {R' : α → β → Prop} {x : Action α} {y : Action β} (h : Related a b R x y)
    (himp : ∀ u v, R u v → R' u v) : Related a b R' x y := by
  intro s t hs
  obtain ⟨ending, state, effects⟩ := h s t hs
  refine ⟨?_, state, effects⟩
  generalize (x a s).result = r, (y b t).result = r' at ending
  cases ending with
  | failure e => exact .failure e
  | value hr => exact .value (himp _ _ hr)

end Related

namespace Blind

protected theorem pure (u : α) : Blind a b (Pure.pure u : Action α) := Related.pure rfl

protected theorem fail (e : Failure) : Blind a b (fail e : Action α) := Related.fail e

protected theorem ofExcept (r : Except Error α) : Blind a b (ofExcept r) := by
  cases r with
  | ok u => exact .pure u
  | error e => exact .fail _

protected theorem bind {x : Action α} {f : α → Action β} (hx : Blind a b x)
    (hf : ∀ u, Blind a b (f u)) : Blind a b (x >>= f) := by
  refine Related.bind hx fun u v huv => ?_
  subst huv
  exact hf u

protected theorem attempt {x : Action α} (hx : Blind a b x) : Blind a b (attempt x) :=
  Related.mono (Related.attempt hx) fun _ _ h => h.eq

/-- An operation that asks for the setup, but not for what may differ. -/
protected theorem setup {f : Setup → Action α} (h : f a = f b) (hf : Blind a b (f a)) :
    Blind a b (Action.setup >>= f) := by
  refine Related.setup ?_
  rw [← h]
  exact hf

/-- An operation that asks for the state, but not for the vocabularies. -/
protected theorem state {f : State → Action α} (h : ∀ s t, s.Agrees t → f s = f t)
    (hf : ∀ s, Blind a b (f s)) : Blind a b (Action.state >>= f) := by
  intro s t hs
  rw [bind_run_ok (a := s) rfl, bind_run_ok (a := t) rfl, ← h s t hs]
  exact hf s s t hs

protected theorem emit {effect : Effect} (h : effect.usage? = none) : Blind a b (emit effect) :=
  fun _ _ hs => ⟨.value rfl, hs, .same (by simpa [Action.emit] using h)⟩

protected theorem modifyIndex (f : Index → Index) : Blind a b (modifyIndex f) :=
  fun _ _ hs => ⟨.value rfl, ⟨congrArg f hs.index, hs.disk, hs.loads⟩, .nil⟩

protected theorem modifyDisk (f : Disk → Disk) :
    Blind a b (modifyWorld fun w => { w with disk := f w.disk }) :=
  fun _ _ hs => ⟨.value rfl, ⟨hs.index, congrArg f hs.disk, hs.loads⟩, .nil⟩

protected theorem transition {f : Registry → Registry × List Effect}
    (h : ∀ r, ∀ effect ∈ (f r).2, effect.usage? = none) : Blind a b (transition f) := by
  intro s t hs
  rw [transition_run, transition_run, hs.index, hs.loads]
  exact ⟨.value rfl, ⟨rfl, hs.disk, rfl⟩, .same (h _)⟩

/-- A blind operation with an answer that shows its value. -/
theorem shown {x : Action α} (hx : Blind a b x) {R : β → β → Prop} (same : ∀ u, R u u) (f : α → β) :
    Related a b R (x >>= fun u => Pure.pure (f u)) (x >>= fun u => Pure.pure (f u)) := by
  refine Related.bind hx fun u v huv => ?_
  subst huv
  exact .pure (same (f u))

end Blind

/-! ## Parts of a load -/

theorem blind_startLoad (language : String) : Blind a b (startLoad language) :=
  .state (fun s t hs => by rw [hs.index]) fun _ =>
    .bind (.transition fun r => unreported_step r (.call language)) fun _ => .pure _

theorem blind_loadFailure? (call : Nat) : Blind a b (loadFailure? call) := by
  refine .state (fun s t hs => by rw [hs.index]) fun s => ?_
  split
  · exact .pure _
  · exact .pure none

theorem blind_firstFailure? (calls : List Nat) : Blind a b (firstFailure? calls) := by
  induction calls with
  | nil => exact .pure none
  | cons c calls ih =>
    refine .bind (blind_loadFailure? c) fun e => ?_
    cases e with
    | some e => exact .pure _
    | none => exact ih

theorem blind_startLoads (languages : List String) : Blind a b (startLoads languages) := by
  induction languages with
  | nil => exact .pure []
  | cons language languages ih =>
    exact .bind (blind_startLoad language) fun _ => .bind ih fun _ => .pure _

theorem blind_endLoad (call : Nat) : Blind a b (endLoad call) := by
  refine .bind (blind_loadFailure? call) fun e => ?_
  cases e with
  | some e => exact .fail e
  | none => exact .pure ()

theorem blind_endLoads (calls : List Nat) : Blind a b (endLoads calls) := by
  induction calls with
  | nil => exact .pure []
  | cons c calls ih =>
    exact .bind (.attempt (blind_endLoad c)) fun _ => .bind ih fun _ => .pure _

theorem blind_failFirst (calls : List Nat) : Blind a b (failFirst calls) := by
  refine .bind (blind_firstFailure? calls) fun e => ?_
  cases e with
  | some e => exact .fail e
  | none => exact .pure ()

theorem blind_grammar (language : String) : Blind a b (grammar language) :=
  .state (fun s t hs => by rw [hs.index]) fun _ => .ofExcept _

theorem blind_isLoaded (language : String) : Blind a b (isLoaded language) :=
  .state (fun s t hs => by rw [hs.index]) fun _ => .pure _

/-! ## Parts of a parse -/

theorem blind_cached? (file : String) : Blind a b (cached? file) :=
  .state (fun s t hs => by rw [hs.index]) fun _ => .pure _

theorem blind_source (file : String) (content : Option String) : Blind a b (source file content) := by
  unfold source
  split
  · exact .pure _
  · refine .bind (.emit rfl) fun _ => .state (fun s t hs => by rw [hs.disk]) fun s => ?_
    split
    · exact .pure _
    · exact .fail _

theorem blind_languageOf (language : Option String) (file : String) :
    Blind a b (languageOf language file) := by
  unfold languageOf
  split
  · exact .pure _
  · exact .fail _

theorem blind_store (file language : String) (grammar : Grammar) (tree : Tree) (content : String) :
    Blind a b (store file language grammar tree content) :=
  .state (fun s t hs => by rw [hs.index]) fun _ =>
    .bind (.modifyIndex _) fun _ => .bind (.emit rfl) fun _ => .pure _

variable (agree : a.Agrees b)

include agree

/-! ## Loading and documents -/

theorem blind_settle : Blind a b settle :=
  .setup (by rw [agree.engine]) <|
    .state (fun s t hs => by rw [hs.loads]) fun _ => .transition fun r => unreported_run r _

theorem blind_load (language : String) : Blind a b (load language) :=
  .bind (blind_startLoad language) fun c => .bind (blind_settle agree) fun _ => blind_endLoad c

theorem blind_loadEach (languages : List String) : Blind a b (loadEach languages) :=
  .bind (blind_startLoads languages) fun calls => .bind (blind_settle agree) fun _ =>
    blind_endLoads calls

theorem blind_loadTogether (languages : List String) : Blind a b (loadTogether languages) :=
  .bind (blind_startLoads languages) fun calls => .bind (blind_failFirst calls) fun _ =>
    .bind (blind_settle agree) fun _ => blind_failFirst calls

theorem blind_loadCancelled (language : String) : Blind a b (loadCancelled language) :=
  .bind (blind_startLoad language) fun c => .bind (blind_endLoad c) fun _ =>
    .bind (.transition fun r => unreported_run r [.cancel c, .wake c]) fun _ =>
      .state (fun s t hs => by rw [hs.index]) fun _ =>
        .bind (blind_settle agree) fun _ => .pure _

theorem blind_canonical (path : String) : Blind a b (canonical path) := by
  unfold canonical
  split
  · exact .fail _
  · exact .setup (by rw [agree.directory]) (.pure _)

theorem blind_entry (path : String) : Blind a b <| entry? path :=
  .bind (blind_canonical agree path) blind_cached?

theorem blind_isCached (path : String) : Blind a b (isCached path) :=
  .bind (blind_entry agree path) fun _ => .pure _

theorem blind_forget (path : String) : Blind a b (forget path) :=
  .bind (blind_canonical agree path) fun _ =>
    .bind (blind_cached? _) fun _ => .bind (.modifyIndex _) fun _ => .pure _

theorem blind_parse (file : String) (language content : Option String) :
    Blind a b (parse file language content) := by
  refine .bind (blind_languageOf language file) fun language => .bind (blind_load agree language)
    fun _ => .bind (blind_grammar language) fun grammar => .bind (blind_source file content)
      fun content => .setup (by rw [agree.engine]) ?_
  split
  · exact blind_store _ _ _ _ _
  · exact .fail _

theorem blind_document (path : String) (language content : Option String) :
    Blind a b (document path language content) := by
  refine .bind (blind_canonical agree path) fun file => .bind (blind_cached? file) fun d => ?_
  cases d with
  | some d => exact .bind (.emit rfl) fun _ => .pure d
  | none => exact blind_parse agree file language content

theorem blind_reparse (path : String) (language content : Option String) :
    Blind a b (reparse path language content) :=
  .bind (blind_canonical agree path) fun file => blind_parse agree file language content

/-! ## Lookups -/

theorem blind_captures (path query : String) : Blind a b (captures path query) :=
  .bind (blind_document agree path none none) fun _ =>
    .setup (by rw [agree.engine]) (.ofExcept _)

theorem blind_elements (path kind : String) : Blind a b (elements path kind) :=
  .bind (blind_document agree path none none) fun _ => .pure _

theorem blind_enclosing (path : String) (p : Point) : Blind a b (enclosing path p) :=
  .bind (blind_document agree path none none) fun _ => .setup (by rw [agree.blocks]) (.pure _)

end Action
end CodeIndex
