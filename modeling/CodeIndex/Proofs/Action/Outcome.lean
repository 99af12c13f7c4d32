import CodeIndex.Lookup.ByPath
import CodeIndex.Proofs.Action.Tokens
import CodeIndex.Proofs.Cache.Parsing

/-!
# CodeIndex.Proofs.Action.Outcome

How operations end.

* `Run.Ends`: nothing is handed to the sink, a value that is given is of some kind, and the only fault is
  that there is no encoding to count tokens with. Errors are not restricted.
* `Action.Ends`: all runs of an operation end so.
* `Ends.bind`: an operation put together from such ones is such a one.
-/

namespace CodeIndex

variable {α β : Type}

/-- The event that an effect hands to the sink. -/
def Effect.usage? : Effect → Option Usage
  | .event u | .log (.usage u) => some u
  | .log _ | .read _ | .load _ | .vocabulary _ | .shown _ => none

/-- The fault of a setup without an encoding. -/
def Setup.Lacks (setup : Setup) (f : Fault) : Prop :=
  setup.encoding? = none ∧ f = .unknownEncoding setup.settings.encoding

structure Run.Ends (setup : Setup) (P : α → Prop) (r : Run α) : Prop where
  unreported : ∀ effect ∈ r.effects, effect.usage? = none
  value : ∀ a, r.result = .ok a → P a
  fault : ∀ f, r.result = .error (.fault f) → setup.Lacks f

namespace Action

def Ends (P : α → Prop) (x : Action α) : Prop := ∀ setup s, (x setup s).Ends setup P

/-- An operation that may give any value. -/
def Calm (x : Action α) : Prop := Ends (fun _ => True) x

namespace Ends

variable {P : α → Prop} {Q : β → Prop}

protected theorem pure {a : α} (h : P a) : Ends P (Pure.pure a) := by
  intro setup s
  refine ⟨by simp, fun b hb => ?_, fun f hf => ?_⟩
  · cases hb
    exact h
  · cases hf

protected theorem error (e : Error) : Ends P (fail (.error e)) := by
  intro setup s
  refine ⟨by simp [fail], fun b hb => ?_, fun f hf => ?_⟩
  · cases hb
  · cases hf

protected theorem bind {x : Action α} {f : α → Action β} (hx : Ends P x)
    (hf : ∀ a, P a → Ends Q (f a)) : Ends Q (x >>= f) := by
  intro setup s
  have first := hx setup s
  cases hr : (x setup s).result with
  | error e =>
    rw [bind_run_error hr]
    refine ⟨first.unreported, fun b hb => ?_, fun f hf => ?_⟩
    · cases hb
    · cases hf
      exact first.fault _ hr
  | ok a =>
    have next := hf a (first.value a hr) setup (x setup s).state
    rw [bind_run_ok hr]
    refine ⟨fun effect hm => ?_, next.value, next.fault⟩
    rcases List.mem_append.mp hm with hm | hm
    · exact first.unreported effect hm
    · exact next.unreported effect hm

protected theorem setup {f : Setup → Action β} (h : ∀ setup, Ends Q (f setup)) :
    Ends Q (Action.setup >>= f) :=
  fun setup s => h setup setup s

protected theorem state {f : State → Action β} (h : ∀ s, Ends Q (f s)) :
    Ends Q (Action.state >>= f) :=
  fun setup s => h s setup s

protected theorem emit {effect : Effect} (h : effect.usage? = none) : Calm (emit effect) := by
  intro setup s
  refine ⟨by simpa [Action.emit] using h, fun _ _ => trivial, fun f hf => ?_⟩
  cases hf

protected theorem modifyIndex (f : Index → Index) : Calm (modifyIndex f) := by
  intro setup s
  refine ⟨by simp [Action.modifyIndex], fun _ _ => trivial, fun f hf => ?_⟩
  cases hf

protected theorem ofExcept (r : Except Error α) : Calm (ofExcept r) := by
  cases r with
  | ok a => exact .pure trivial
  | error e => exact .error e

end Ends

/-! ## Loading -/

theorem unreported_step (r : Registry) (e : Event) :
    ∀ effect ∈ (r.step e).2, effect.usage? = none := by
  intro effect hm
  cases e with
  | call language =>
    simp only [Registry.step, Registry.call] at hm
    split at hm
    · rw [List.mem_singleton.mp hm]
      rfl
    · split at hm <;> cases hm
  | cancel c => cases hm
  | start k =>
    simp only [Registry.step, Registry.start] at hm
    split at hm
    · rw [List.mem_singleton.mp hm]
      rfl
    · cases hm
  | finish k outcome =>
    simp only [Registry.step, Registry.finish] at hm
    split at hm
    · split at hm <;> rw [List.mem_singleton.mp hm] <;> rfl
    · cases hm
  | wake c => cases hm

theorem unreported_run (r : Registry) (events : List Event) :
    ∀ effect ∈ (r.run events).2, effect.usage? = none := by
  induction events generalizing r with
  | nil => simp
  | cons e events ih =>
    intro effect hm
    rcases List.mem_append.mp hm with hm | hm
    · exact unreported_step r e effect hm
    · exact ih _ effect hm

theorem calm_transition {f : Registry → Registry × List Effect}
    (h : ∀ r, ∀ effect ∈ (f r).2, effect.usage? = none) : Calm (transition f) := by
  intro setup s
  rw [transition_run]
  refine ⟨h _, fun _ _ => trivial, fun f hf => ?_⟩
  cases hf

theorem calm_startLoad (language : String) : Calm (startLoad language) :=
  .state fun _ => .bind (calm_transition fun r => unreported_step r (.call language)) fun _ _ =>
    .pure trivial

theorem calm_startLoads (languages : List String) : Calm (startLoads languages) := by
  induction languages with
  | nil => exact .pure trivial
  | cons language languages ih =>
    exact .bind (calm_startLoad language) fun _ _ => .bind ih fun _ _ => .pure trivial

theorem calm_settle : Calm settle :=
  .setup fun _ => .state fun _ => calm_transition fun r => unreported_run r _

/-- A load call fails with an error. -/
def IsError (e : Option Failure) : Prop := ∀ f, e ≠ some (.fault f)

theorem loadFailure?_ends (call : Nat) : Ends IsError (loadFailure? call) := by
  refine .state fun s => ?_
  split
  · exact .pure fun f hf => by cases hf
  · exact .pure fun f hf => by cases hf

theorem firstFailure?_ends (calls : List Nat) : Ends IsError (firstFailure? calls) := by
  induction calls with
  | nil => exact .pure fun f hf => by cases hf
  | cons c calls ih =>
    refine .bind (loadFailure?_ends c) fun e he => ?_
    cases e with
    | none => exact ih
    | some e => exact .pure he

theorem calm_failWith {e : Option Failure} (h : IsError e) :
    Calm (match e with
      | some e => fail e
      | none => Pure.pure ()) := by
  cases e with
  | none => exact .pure trivial
  | some e =>
    cases e with
    | error e => exact .error e
    | fault f => exact absurd rfl (h f)

theorem calm_endLoad (call : Nat) : Calm (endLoad call) :=
  .bind (loadFailure?_ends call) fun _ he => calm_failWith he

theorem calm_failFirst (calls : List Nat) : Calm (failFirst calls) :=
  .bind (firstFailure?_ends calls) fun _ he => calm_failWith he

theorem calm_load (language : String) : Calm (load language) :=
  .bind (calm_startLoad language) fun c _ => .bind calm_settle fun _ _ => calm_endLoad c

theorem calm_loadTogether (languages : List String) : Calm (loadTogether languages) :=
  .bind (calm_startLoads languages) fun calls _ => .bind (calm_failFirst calls) fun _ _ =>
    .bind calm_settle fun _ _ => calm_failFirst calls

/-! ## Documents -/

theorem calm_languageOf (language : Option String) (file : String) : Calm (languageOf language file) := by
  unfold languageOf
  split
  · exact .pure trivial
  · exact .error _

theorem calm_source (file : String) (content : Option String) : Calm (source file content) := by
  unfold source
  split
  · exact .pure trivial
  · refine .bind (.emit rfl) fun _ _ => .state fun s => ?_
    split
    · exact .pure trivial
    · exact .error _

theorem calm_store (file language : String) (grammar : Grammar) (tree : Tree) (content : String) :
    Calm (store file language grammar tree content) :=
  .state fun _ => .bind (.modifyIndex _) fun _ _ => .bind (.emit rfl) fun _ _ => .pure trivial

theorem calm_grammar (language : String) : Calm (grammar language) := .state fun _ => .ofExcept _

theorem calm_parse (file : String) (language content : Option String) :
    Calm (parse file language content) := by
  refine .bind (calm_languageOf language file) fun language _ => .bind (calm_load language) fun _ _ =>
    .bind (calm_grammar language) fun grammar _ => .bind (calm_source file content) fun content _ =>
    .setup fun setup => ?_
  split
  · exact calm_store _ _ _ _ _
  · exact .error _

theorem calm_canonical {path : String} (h : Path.hasNul path = false) : Calm (canonical path) := by
  unfold canonical
  rw [h]
  exact .setup fun _ => .pure trivial

theorem calm_document {path : String} (h : Path.hasNul path = false)
    (language content : Option String) : Calm (document path language content) := by
  refine .bind (calm_canonical h) fun file _ =>
    .bind (.state fun _ => .pure trivial : Calm (cached? file)) fun d _ => ?_
  cases d with
  | none => exact calm_parse file language content
  | some d => exact .bind (.emit rfl) fun _ _ => .pure trivial

theorem calm_reparse {path : String} (h : Path.hasNul path = false)
    (language content : Option String) : Calm (reparse path language content) :=
  .bind (calm_canonical h) fun file _ => calm_parse file language content

/-! ## Tokens -/

theorem calm_takeVocabulary (name : String) : Calm (takeVocabulary name) := by
  refine .state fun s => ?_
  split
  · exact .pure trivial
  · refine .bind (.emit rfl) fun _ _ setup s => ⟨by simp [modifyWorld], fun _ _ => trivial, ?_⟩
    intro f hf
    cases hf

theorem unreported_environmentEncoding (setup : Setup) (s : State) :
    ∀ effect ∈ (environmentEncoding setup s).effects, effect.usage? = none := by
  have hv := (calm_takeVocabulary setup.settings.encoding setup s).unreported
  have hok : (takeVocabulary setup.settings.encoding setup s).result = .ok () :=
    takeVocabulary_ok _ s
  rw [environmentEncoding, setup_bind_run]
  cases setup.vocabulary? setup.settings.encoding with
  | none => simp [bind_run, emit, fail, Effect.usage?]
  | some e =>
    dsimp only
    rw [bind_run_ok hok]
    simpa using hv

theorem calm_encoding : Calm encoding := by
  intro setup s
  refine ⟨?_, fun _ _ => trivial, fun f hf => ?_⟩
  · rw [encoding, setup_bind_run]
    cases setup.encoding with
    | none => exact unreported_environmentEncoding setup s
    | some e => simp
  · rw [encoding_result] at hf
    cases he : setup.encoding? with
    | some e =>
      rw [he] at hf
      cases hf
    | none =>
      rw [he] at hf
      cases hf
      exact ⟨he, rfl⟩

theorem calm_tokensOf (text : String) : Calm (tokensOf text) := by
  unfold tokensOf
  split
  · exact .pure trivial
  · exact .bind calm_encoding fun _ _ => .pure trivial

theorem calm_ofNode (text : Node → String) (root : Node) (source : String) :
    Calm (Comparison.ofNode text root source) :=
  .bind (calm_tokensOf _) fun _ _ => .bind (calm_tokensOf _) fun _ _ =>
    .bind (calm_tokensOf _) fun _ _ => .pure trivial

/-! ## Lookups -/

section
variable {path : String} (h : Path.hasNul path = false)

include h

theorem calm_captures (query : String) : Calm (captures path query) :=
  .bind (calm_document h none none) fun _ _ => .setup fun _ => .ofExcept _

theorem calm_elements (kind : String) : Calm (elements path kind) :=
  .bind (calm_document h none none) fun _ _ => .pure trivial

theorem calm_enclosing (p : Point) : Calm (enclosing path p) :=
  .bind (calm_document h none none) fun _ _ => .setup fun _ => .pure trivial

theorem calm_comparison (language content : Option String) : Calm (comparison path language content) :=
  .bind (calm_document h language content) fun _ _ => calm_ofNode _ _ _

end

end Action
end CodeIndex
