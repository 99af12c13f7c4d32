import CodeIndex.Proofs.Action.Batch

/-!
# CodeIndex.Proofs.Action.Blameless

Operations of the index never fail with the error of an argument: once a request has been made from its
arguments, what goes wrong has another cause.

* `Blameless`: an operation that does not fail so in any setup and state.
* `Blameless.bind`: an operation put together from such ones is such a one.
* `blameless_request_run`: every request is such a one.
-/

namespace CodeIndex
namespace Action

variable {α β : Type}

/-- An operation that blames no argument for a failure. -/
def Blameless (x : Action α) : Prop :=
  ∀ setup s e, (x setup s).result ≠ .error (.error (.argument e))

namespace Blameless

protected theorem ok {x : Action α} (h : ∀ setup s, ∃ a, (x setup s).result = .ok a) :
    Blameless x := by
  intro setup s e he
  obtain ⟨a, ha⟩ := h setup s
  rw [ha] at he
  cases he

protected theorem pure (a : α) : Blameless (Pure.pure a : Action α) :=
  .ok fun _ _ => ⟨a, rfl⟩

protected theorem fail {failure : Failure} (h : ∀ e, failure ≠ .error (.argument e)) :
    Blameless (fail failure : Action α) := by
  intro setup s e he
  cases he
  exact h e rfl

protected theorem ofExcept {r : Except Error α} (h : ∀ e, r ≠ .error (.argument e)) :
    Blameless (ofExcept r) := by
  cases r with
  | ok a => exact .pure a
  | error failure =>
    refine .fail fun e he => h e ?_
    cases he
    rfl

protected theorem bind {x : Action α} {f : α → Action β} (hx : Blameless x)
    (hf : ∀ a, Blameless (f a)) : Blameless (x >>= f) := by
  intro setup s e
  cases hr : (x setup s).result with
  | ok a =>
    rw [bind_result_ok hr]
    exact hf a setup _ e
  | error failure =>
    rw [bind_result_error hr]
    intro he
    cases he
    exact hx setup s e hr

protected theorem setup {f : Setup → Action β} (h : ∀ setup, Blameless (f setup)) :
    Blameless (Action.setup >>= f) :=
  fun setup s => h setup setup s

protected theorem state {f : State → Action β} (h : ∀ s, Blameless (f s)) :
    Blameless (Action.state >>= f) :=
  fun setup s => h s setup s

protected theorem emit (effect : Effect) : Blameless (emit effect) := .ok fun _ _ => ⟨(), rfl⟩

protected theorem modifyIndex (f : Index → Index) : Blameless (modifyIndex f) :=
  .ok fun _ _ => ⟨(), rfl⟩

end Blameless

/-! ## Loading -/

/-- A load call that fails does so with the fault of the loader. -/
theorem endingOf_failureAt_ne (r : Registry) (call : Nat) (e : ArgumentError) :
    endingOf (r.failureAt call) ≠ .error (.error (.argument e)) := by
  cases hf : r.failureAt call with
  | none => exact nofun
  | some failure =>
    obtain ⟨name, fault, rfl⟩ := Registry.eq_noGrammar_of_failureAt hf
    exact nofun

theorem blameless_startLoad (language : String) : Blameless (startLoad language) :=
  .ok fun setup s => ⟨_, by rw [startLoad_run]⟩

theorem blameless_startLoads (languages : List String) : Blameless (startLoads languages) :=
  .ok fun setup s => ⟨_, by rw [startLoads_run]⟩

theorem blameless_settle : Blameless settle := .ok fun setup s => ⟨(), (settle_run setup s).1⟩

theorem blameless_endLoad (call : Nat) : Blameless (endLoad call) := by
  intro setup s e he
  rw [endLoad, bind_run, loadFailure?_run] at he
  refine endingOf_failureAt_ne s.index.registry call e ?_
  cases hf : s.index.registry.failureAt call with
  | none =>
    rw [hf] at he
    cases he
  | some failure =>
    rw [hf] at he
    exact he

theorem blameless_failFirst (calls : List Nat) : Blameless (failFirst calls) := by
  intro setup s e he
  rw [failFirst_run] at he
  cases hf : calls.findSome? s.index.registry.failureAt with
  | none =>
    rw [hf] at he
    cases he
  | some failure =>
    rw [hf] at he
    obtain ⟨call, -, hcall⟩ := List.exists_of_findSome?_eq_some hf
    refine endingOf_failureAt_ne s.index.registry call e ?_
    rw [hcall]
    exact he

theorem blameless_load (language : String) : Blameless (load language) :=
  .bind (blameless_startLoad language) fun c => .bind blameless_settle fun _ => blameless_endLoad c

theorem blameless_loadTogether (languages : List String) : Blameless (loadTogether languages) :=
  .bind (blameless_startLoads languages) fun calls => .bind (blameless_failFirst calls) fun _ =>
    .bind blameless_settle fun _ => blameless_failFirst calls

/-! ## Documents -/

theorem blameless_languageOf (language : Option String) (file : String) :
    Blameless (languageOf language file) := by
  unfold languageOf
  split
  · exact .pure _
  · exact .fail fun _ => nofun

theorem blameless_grammar (language : String) : Blameless (grammar language) := by
  refine .state fun s => .ofExcept fun e => ?_
  unfold Registry.get
  split <;> exact nofun

theorem blameless_source (file : String) (content : Option String) :
    Blameless (source file content) := by
  unfold source
  split
  · exact .pure _
  · refine .bind (.emit _) fun _ => .state fun s => ?_
    split
    · exact .pure _
    · exact .fail fun _ => nofun

theorem blameless_store (file language : String) (grammar : Grammar) (tree : Tree)
    (content : String) : Blameless (store file language grammar tree content) :=
  .state fun _ => .bind (.modifyIndex _) fun _ => .bind (.emit _) fun _ => .pure _

theorem blameless_parse (file : String) (language content : Option String) :
    Blameless (parse file language content) := by
  refine .bind (blameless_languageOf language file) fun language =>
    .bind (blameless_load language) fun _ => .bind (blameless_grammar language) fun grammar =>
      .bind (blameless_source file content) fun content => .setup fun setup => ?_
  split
  · exact blameless_store _ _ _ _ _
  · exact .fail fun _ => nofun

theorem blameless_canonical (path : String) : Blameless (canonical path) := by
  unfold canonical
  split
  · exact .fail fun _ => nofun
  · exact .setup fun setup => .pure _

theorem blameless_document (path : String) (language content : Option String) :
    Blameless (document path language content) := by
  refine .bind (blameless_canonical path) fun file =>
    .bind (.state fun _ => .pure _ : Blameless (cached? file)) fun d => ?_
  cases d with
  | none => exact blameless_parse file language content
  | some d => exact .bind (.emit _) fun _ => .pure d

theorem blameless_reparse (path : String) (language content : Option String) :
    Blameless (reparse path language content) :=
  .bind (blameless_canonical path) fun file => blameless_parse file language content

/-! ## Lookups -/

theorem blameless_tokensOf (text : String) : Blameless (tokensOf text) := by
  intro setup s e he
  cases hn : setup.encoding? with
  | some encoding =>
    rw [tokensOf_of_some hn] at he
    cases he
  | none =>
    by_cases ht : text = ""
    · rw [tokensOf, if_pos ht] at he
      cases he
    · rw [tokensOf_of_none hn ht] at he
      cases he

theorem blameless_captures (path query : String) : Blameless (captures path query) := by
  refine .bind (blameless_document path none none) fun d => .setup fun setup => .ofExcept fun e => ?_
  unfold Capture.list
  split <;> exact nofun

theorem blameless_comparison (path : String) (language content : Option String) :
    Blameless (comparison path language content) :=
  .bind (blameless_document path language content) fun _ => .bind (blameless_tokensOf _) fun _ =>
    .bind (blameless_tokensOf _) fun _ => .bind (blameless_tokensOf _) fun _ => .pure _

theorem blameless_request_run (r : Request) : Blameless r.run := by
  cases r with
  | loadLanguages languages => exact .bind (blameless_loadTogether languages) fun _ => .pure _
  | reparse path language content =>
    exact .bind (blameless_reparse path language content) fun _ => .pure _
  | captures path query => exact .bind (blameless_captures path query) fun _ => .pure _
  | elements path kind =>
    exact .bind (.bind (blameless_document path none none) fun _ => .pure _) fun _ => .pure _
  | enclosing path point =>
    exact .bind (.bind (blameless_document path none none) fun _ => .setup fun _ => .pure _)
      fun _ => .pure _
  | comparison path language content =>
    exact .bind (blameless_comparison path (some language) content) fun _ => .pure _

end Action
end CodeIndex
