import CodeIndex.Proofs.Error
import CodeIndex.Proofs.Registry.Answer
import CodeIndex.Proofs.Session.Reachable
import CodeIndex.Proofs.Tool.Boundary

/-!
# CodeIndex.Proofs.Action.Unloaded

Lookups, parses and tools load the grammar of a language before they ask for it, so that none of them
ever finds a language that is not loaded.

* `Secure`: in a coherent registry an operation neither fails since a language is not loaded, nor says so
  in a notice, an event or an answer, and it leaves the registry coherent.
* `Secure.bind`: an operation put together from such ones is such a one.
* `load_registers`: after a load that has not failed the language is registered, whatever else was under
  way. `secure_load_grammar` puts the two together: only right after a load is a grammar asked for.
-/

namespace CodeIndex

variable {α β : Type}

/-- The text says that a language is not loaded. -/
def IsUnloadedText (text : String) : Prop := ∃ language, text = (Error.notLoaded language).message

theorem not_isUnloadedText_message {e : Error} (h : ∀ language, e ≠ .notLoaded language) :
    ¬IsUnloadedText e.message := by
  rintro ⟨language, he⟩
  have hmark : e.mark ≠ (Error.notLoaded language).mark := by
    cases e with
    | notLoaded other => exact absurd rfl (h other)
    | _ => simp [Error.mark]
  exact Error.message_ne hmark he

theorem not_isUnloadedText_unknownTool (name : String) :
    ¬IsUnloadedText (Action.unknownTool name) := by
  rintro ⟨language, he⟩
  exact Error.message_ne_unknownTool _ name he.symm

def Effect.TellsUnloaded : Effect → Prop
  | .log (.toolFailed _ e) => ∃ language, e = .notLoaded language
  | .event u | .log (.usage u) => ∃ text, u.error = some text ∧ IsUnloadedText text
  | .log _ | .read _ | .load _ | .vocabulary _ | .shown _ => False

/-- No part of the answer says that a language is not loaded. -/
def Answer.Spares (answer : Answer) : Prop :=
  ∀ text, .error text ∈ answer.parts → ¬IsUnloadedText text

theorem Answer.Spares.errorText {answer : Answer} (h : answer.Spares) {text : String}
    (he : answer.errorText? = some text) : ¬IsUnloadedText text := by
  obtain ⟨part, hm, hp⟩ := List.exists_of_findSome?_eq_some he
  cases part with
  | error message =>
    cases hp
    exact h text hm
  | text t | json v => cases hp

theorem Answer.Spares.unwrap {answer : Answer} (h : answer.Spares) {message : String}
    (hu : Function.unwrap answer = .error ⟨message⟩) : ¬IsUnloadedText message := by
  unfold Function.unwrap at hu
  split at hu
  · rename_i text parts hparts
    cases hu
    exact h message (by rw [hparts]; exact List.mem_cons_self)
  · cases hu
  · cases hu
  · cases hu

theorem Answer.spares_of_not_mem {answer : Answer} (h : ∀ text, .error text ∉ answer.parts) :
    answer.Spares :=
  fun text hm => absurd hm (h text)

theorem Answer.spares_error {text : String} (h : ¬IsUnloadedText text) :
    (Answer.error text).Spares := by
  intro other hm
  simp only [Answer.error, List.mem_singleton, Part.error.injEq] at hm
  rw [hm]
  exact h

structure Run.Secure (P : α → Prop) (r : Run α) : Prop where
  coherent : r.state.index.registry.Coherent
  value : ∀ a, r.result = .ok a → P a
  failure : ∀ language, r.result ≠ .error (.error (.notLoaded language))
  effect : ∀ effect ∈ r.effects, ¬effect.TellsUnloaded

namespace Action

/-- An operation that never misses a language, with what is so of the values that it gives. -/
def Secure (P : α → Prop) (x : Action α) : Prop :=
  ∀ setup s, s.index.registry.Coherent → (x setup s).Secure P

namespace Secure

variable {P : α → Prop} {Q : β → Prop}

protected theorem pure {a : α} (h : P a) : Secure P (Pure.pure a) := by
  intro setup s hs
  refine ⟨hs, fun b hb => ?_, fun language => nofun, by simp⟩
  cases hb
  exact h

protected theorem fail {e : Failure} (h : ∀ language, e ≠ .error (.notLoaded language)) :
    Secure P (fail e) := by
  intro setup s hs
  refine ⟨hs, fun b hb => ?_, fun language he => ?_, by simp [Action.fail]⟩
  · cases hb
  · cases he
    exact h language rfl

protected theorem ofExcept {r : Except Error α} (h : ∀ language, r ≠ .error (.notLoaded language)) :
    Secure (fun _ => True) (ofExcept r) := by
  cases r with
  | ok a => exact .pure trivial
  | error e =>
    refine .fail fun language he => h language ?_
    cases he
    rfl

protected theorem bind {x : Action α} {f : α → Action β} (hx : Secure P x)
    (hf : ∀ a, P a → Secure Q (f a)) : Secure Q (x >>= f) := by
  intro setup s hs
  have first := hx setup s hs
  cases hr : (x setup s).result with
  | error e =>
    rw [bind_run_error hr]
    refine ⟨first.coherent, fun b hb => ?_, fun language he => ?_, first.effect⟩
    · cases hb
    · cases he
      exact first.failure language hr
  | ok a =>
    have next := hf a (first.value a hr) setup (x setup s).state first.coherent
    rw [bind_run_ok hr]
    refine ⟨next.coherent, next.value, next.failure, fun effect hm => ?_⟩
    rcases List.mem_append.mp hm with hm | hm
    · exact first.effect effect hm
    · exact next.effect effect hm

protected theorem setup {f : Setup → Action β} (h : ∀ setup, Secure Q (f setup)) :
    Secure Q (Action.setup >>= f) :=
  fun setup s hs => h setup setup s hs

protected theorem state {f : State → Action β} (h : ∀ s, Secure Q (f s)) :
    Secure Q (Action.state >>= f) :=
  fun setup s hs => h s setup s hs

protected theorem emit {effect : Effect} (h : ¬effect.TellsUnloaded) :
    Secure (fun _ => True) (emit effect) := by
  intro setup s hs
  exact ⟨hs, fun _ _ => trivial, fun language => nofun, by simpa [Action.emit] using h⟩

protected theorem modifyIndex {f : Index → Index} (h : ∀ i, (f i).registry = i.registry) :
    Secure (fun _ => True) (modifyIndex f) := by
  intro setup s hs
  refine ⟨?_, fun _ _ => trivial, fun language => nofun, by simp [Action.modifyIndex]⟩
  rw [show (modifyIndex f setup s).state.index.registry = _ from h s.index]
  exact hs

protected theorem modifyWorld (f : World → World) : Secure (fun _ => True) (modifyWorld f) :=
  fun _ _ hs => ⟨hs, fun _ _ => trivial, fun language => nofun, by simp [Action.modifyWorld]⟩

/-- Whatever has gone wrong, it was not a language that is not loaded. -/
protected theorem attempt {x : Action α} (hx : Secure P x) :
    Secure (fun r => (∀ a, r = .ok a → P a) ∧ ∀ language, r ≠ .error (.error (.notLoaded language)))
      (attempt x) := by
  intro setup s hs
  have h := hx setup s hs
  refine ⟨h.coherent, fun r hr => ?_, fun language => nofun, h.effect⟩
  cases hr
  exact ⟨h.value, h.failure⟩

end Secure

/-! ## Loading -/

theorem spared_step (r : Registry) (e : Event) :
    ∀ effect ∈ (r.step e).2, ¬effect.TellsUnloaded := by
  have h := r.step_does e
  generalize (r.step e).1 = r' at h
  generalize (r.step e).2 = effects at h ⊢
  cases h <;> simp [Effect.TellsUnloaded]

theorem spared_run (r : Registry) (events : List Event) :
    ∀ effect ∈ (r.run events).2, ¬effect.TellsUnloaded := by
  induction events generalizing r with
  | nil => simp
  | cons e events ih =>
    intro effect hm
    rcases List.mem_append.mp hm with hm | hm
    · exact spared_step r e effect hm
    · exact ih _ effect hm

theorem secure_transition {f : Registry → Registry × List Effect}
    (h : ∀ r, ∃ events, f r = r.run events) : Secure (fun _ => True) (transition f) := by
  intro setup s hs
  obtain ⟨events, he⟩ := h s.index.registry
  rw [transition_run, he]
  exact ⟨hs.run events, fun _ _ => trivial, fun language => nofun, spared_run _ events⟩

theorem run_call (r : Registry) (language : String) : r.call language = r.run [.call language] := by
  simp [Registry.run, Registry.step]

theorem secure_startLoad (language : String) : Secure (fun _ => True) (startLoad language) :=
  .state fun _ => .bind (secure_transition fun r => ⟨[.call language], run_call r language⟩) fun _ _ =>
    .pure trivial

theorem secure_startLoads (languages : List String) :
    Secure (fun _ => True) (startLoads languages) := by
  induction languages with
  | nil => exact .pure trivial
  | cons language languages ih =>
    exact .bind (secure_startLoad language) fun _ _ => .bind ih fun _ _ => .pure trivial

theorem secure_settle : Secure (fun _ => True) settle :=
  .setup fun _ => .state fun _ => secure_transition fun _ => ⟨_, rfl⟩

/-- A call fails with the fault of its loader call. -/
def IsNoGrammar (e : Option Failure) : Prop := ∀ language, e ≠ some (.error (.notLoaded language))

theorem loadFailure?_secure (call : Nat) : Secure IsNoGrammar (loadFailure? call) := by
  refine .state fun s => ?_
  split
  · exact .pure fun language => by simp
  · exact .pure fun language => by simp

theorem firstFailure?_secure (calls : List Nat) : Secure IsNoGrammar (firstFailure? calls) := by
  induction calls with
  | nil => exact .pure fun language => by simp
  | cons c calls ih =>
    refine .bind (loadFailure?_secure c) fun e he => ?_
    cases e with
    | none => exact ih
    | some e => exact .pure he

theorem secure_failFirst (calls : List Nat) : Secure (fun _ => True) (failFirst calls) := by
  refine .bind (firstFailure?_secure calls) fun e he => ?_
  cases e with
  | none => exact .pure trivial
  | some e => exact .fail fun language hl => he language (by rw [hl])

theorem secure_loadTogether (languages : List String) :
    Secure (fun _ => True) (loadTogether languages) :=
  .bind (secure_startLoads languages) fun calls _ => .bind (secure_failFirst calls) fun _ _ =>
    .bind secure_settle fun _ _ => secure_failFirst calls

/-- A load returns with the language registered, or it fails with the fault of a loader call. -/
theorem load_registers (setup : Setup) {s : State} (hs : s.index.registry.Coherent)
    (language : String) :
    let run := load language setup s
    (run.result = .ok () ∧
        ∃ g, run.state.index.registry.grammars.get? (Language.normalize language) = some g) ∨
      ∃ fault, run.result = .error (.error (.noGrammar (Language.normalize language) fault)) := by
  intro run
  obtain ⟨c, hcalls, hname, hu⟩ := Registry.call_added s.index.registry language
  have hc : (s.index.registry.call language).1.calls[s.index.registry.calls.length]? = some c := by
    rw [hcalls, List.getElem?_concat_length]
  have coherent : (s.index.registry.call language).1.Coherent := hs.step (.call language)
  obtain ⟨status, hstatus, answered⟩ := coherent.settle_answers (answerOf setup s) hc hu
  obtain ⟨hresult, hregistry, -⟩ := load_run hstatus
  rw [← hname]
  rcases answered with ⟨rfl, g, hg⟩ | ⟨fault, rfl⟩
  · refine .inl ⟨hresult, g, ?_⟩
    rw [hregistry]
    exact hg
  · exact .inr ⟨fault, hresult⟩

theorem secure_load (language : String) : Secure (fun _ => True) (load language) := by
  refine .bind (secure_startLoad language) fun c _ => .bind secure_settle fun _ _ =>
    .bind (loadFailure?_secure c) fun e he => ?_
  cases e with
  | none => exact .pure trivial
  | some e => exact .fail fun language hl => he language (by rw [hl])

section Grammar

variable {setup : Setup} {s : State} {language : String}

theorem grammar_run : grammar language setup s = ofExcept (s.index.registry.get language) setup s := by
  unfold grammar
  rw [bind_run_ok (a := s) rfl]
  rfl

theorem grammar_run_ok {g : Grammar}
    (h : s.index.registry.grammars.get? (Language.normalize language) = some g) :
    grammar language setup s = ⟨.ok g, s, []⟩ := by
  rw [grammar_run, Registry.get, h]
  rfl

theorem grammar_run_none
    (h : s.index.registry.grammars.get? (Language.normalize language) = none) :
    grammar language setup s =
      ⟨.error (.error (.notLoaded (Language.normalize language))), s, []⟩ := by
  rw [grammar_run, Registry.get, h]
  rfl

end Grammar

/-- A grammar that is asked for right after a load of its language is there. -/
theorem secure_load_grammar {language : String} {Q : β → Prop} {f : Grammar → Action β}
    (hf : ∀ g, Secure Q (f g)) :
    Secure Q (load language >>= fun _ => grammar language >>= f) := by
  intro setup s hs
  have first := secure_load language setup s hs
  rcases load_registers setup hs language with ⟨hok, g, hg⟩ | ⟨fault, he⟩
  · have next := hf g setup (load language setup s).state first.coherent
    rw [bind_run_ok hok, bind_run, grammar_run_ok hg]
    dsimp only
    rw [List.nil_append]
    refine ⟨next.coherent, next.value, next.failure, fun effect hm => ?_⟩
    rcases List.mem_append.mp hm with hm | hm
    · exact first.effect effect hm
    · exact next.effect effect hm
  · rw [bind_run_error he]
    refine ⟨first.coherent, fun b hb => ?_, fun other hl => ?_, first.effect⟩
    · cases hb
    · cases hl

/-! ## Documents -/

theorem secure_canonical (path : String) : Secure (fun _ => True) (canonical path) := by
  unfold canonical
  split
  · exact .fail fun language => nofun
  · exact .setup fun _ => .pure trivial

theorem secure_languageOf (language : Option String) (file : String) :
    Secure (fun _ => True) (languageOf language file) := by
  unfold languageOf
  split
  · exact .pure trivial
  · exact .fail fun other => nofun

theorem secure_source (file : String) (content : Option String) :
    Secure (fun _ => True) (source file content) := by
  unfold source
  split
  · exact .pure trivial
  · refine .bind (.emit id) fun _ _ => .state fun s => ?_
    split
    · exact .pure trivial
    · exact .fail fun language => nofun

theorem secure_store (file language : String) (grammar : Grammar) (tree : Tree) (content : String) :
    Secure (fun _ => True) (store file language grammar tree content) :=
  .state fun _ => .bind (.modifyIndex fun _ => rfl) fun _ _ => .bind (.emit id) fun _ _ => .pure trivial

theorem secure_parse (file : String) (language content : Option String) :
    Secure (fun _ => True) (parse file language content) := by
  refine .bind (secure_languageOf language file) fun language _ => secure_load_grammar fun grammar =>
    .bind (secure_source file content) fun content _ => .setup fun setup => ?_
  split
  · exact secure_store _ _ _ _ _
  · exact .fail fun language => nofun

theorem secure_document (path : String) (language content : Option String) :
    Secure (fun _ => True) (document path language content) := by
  refine .bind (secure_canonical path) fun file _ =>
    .bind (.state fun _ => .pure trivial : Secure (fun _ => True) (cached? file)) fun d _ => ?_
  cases d with
  | none => exact secure_parse file language content
  | some d => exact .bind (.emit id) fun _ _ => .pure trivial

theorem secure_reparse (path : String) (language content : Option String) :
    Secure (fun _ => True) (reparse path language content) :=
  .bind (secure_canonical path) fun file _ => secure_parse file language content

/-! ## Tokens -/

theorem secure_takeVocabulary (name : String) : Secure (fun _ => True) (takeVocabulary name) := by
  refine .state fun s => ?_
  split
  · exact .pure trivial
  · exact .bind (.emit id) fun _ _ => .modifyWorld _

theorem secure_environmentEncoding : Secure (fun _ => True) environmentEncoding := by
  refine .setup fun setup => ?_
  dsimp only
  split
  · exact .bind (secure_takeVocabulary _) fun _ _ => .pure trivial
  · exact .bind (.emit id) fun _ _ => .fail fun language => nofun

theorem secure_tokensOf (text : String) : Secure (fun _ => True) (tokensOf text) := by
  unfold tokensOf
  split
  · exact .pure trivial
  · refine .bind (.setup fun setup => ?_ : Secure (fun _ => True) encoding) fun _ _ => .pure trivial
    cases setup.encoding with
    | some encoding => exact .pure trivial
    | none => exact secure_environmentEncoding

theorem secure_answerTokens (parts : List Part) : Secure (fun _ => True) (answerTokens parts) := by
  induction parts with
  | nil => exact .pure trivial
  | cons part parts ih =>
    refine .bind (?_ : Secure (fun _ => True) (partTokens part)) fun _ _ =>
      .bind ih fun _ _ => .pure trivial
    unfold partTokens
    split
    · exact secure_tokensOf _
    · exact .pure trivial
    · exact secure_tokensOf _
    · exact .pure trivial

/-! ## Lookups -/

theorem secure_captures (path query : String) : Secure (fun _ => True) (captures path query) := by
  refine .bind (secure_document path none none) fun d _ => .setup fun setup => .ofExcept ?_
  intro language
  unfold Capture.list
  split <;> exact nofun

theorem secure_elements (path kind : String) : Secure (fun _ => True) (elements path kind) :=
  .bind (secure_document path none none) fun _ _ => .pure trivial

theorem secure_enclosing (path : String) (p : Point) : Secure (fun _ => True) (enclosing path p) :=
  .bind (secure_document path none none) fun _ _ => .setup fun _ => .pure trivial

theorem secure_comparison (path : String) (language content : Option String) :
    Secure (fun _ => True) (comparison path language content) :=
  .bind (secure_document path language content) fun _ _ => .bind (secure_tokensOf _) fun _ _ =>
    .bind (secure_tokensOf _) fun _ _ => .bind (secure_tokensOf _) fun _ _ => .pure trivial

/-! ## Tools -/

theorem secure_request_run (r : Request) : Secure Answer.Spares r.run := by
  have text : ∀ t, (Answer.text t).Spares := fun t => Answer.spares_of_not_mem (by simp [Answer.text])
  have data : ∀ v, (Answer.structured v).Spares :=
    fun v => Answer.spares_of_not_mem (by simp [Answer.structured])
  cases r with
  | loadLanguages languages => exact .bind (secure_loadTogether languages) fun _ _ => .pure (text _)
  | reparse path language content =>
    exact .bind (secure_reparse path language content) fun _ _ => .pure (text _)
  | captures path query => exact .bind (secure_captures path query) fun _ _ => .pure (data _)
  | elements path kind => exact .bind (secure_elements path kind) fun _ _ => .pure (data _)
  | enclosing path point => exact .bind (secure_enclosing path point) fun _ _ => .pure (text _)
  | comparison path language content =>
    exact .bind (secure_comparison path (some language) content) fun _ _ => .pure (data _)

theorem secure_handle (tool : Tool) (arguments : Table Value) :
    Secure Answer.Spares (handle tool arguments) := by
  unfold handle
  cases tool.request arguments with
  | ok request => exact secure_request_run request
  | error e => exact .fail fun language => nofun

theorem secure_answer (name : String) (arguments : Table Value) :
    Secure Answer.Spares (answer name arguments) := by
  unfold answer
  cases Tool.named? name with
  | none => exact .pure (Answer.spares_error (not_isUnloadedText_unknownTool name))
  | some tool =>
    refine .bind (.attempt (secure_handle tool arguments)) fun result hr => ?_
    cases result with
    | ok answer => exact .pure (hr.1 answer rfl)
    | error failure =>
      cases failure with
      | fault f => exact .fail fun language => nofun
      | error e =>
        have he : ∀ language, e ≠ .notLoaded language := by
          rintro language rfl
          exact hr.2 language rfl
        refine .bind (.emit ?_) fun _ _ => .pure (Answer.spares_error (not_isUnloadedText_message he))
        rintro ⟨language, hl⟩
        exact he language hl

theorem secure_report {event : Usage} (h : ∀ text, event.error = some text → ¬IsUnloadedText text) :
    Secure (fun _ => True) (report event) := by
  intro setup s hs
  have spared : ∀ text, ¬(event.error = some text ∧ IsUnloadedText text) :=
    fun text ht => h text ht.1 ht.2
  rw [report_run]
  refine ⟨hs, fun _ _ => trivial, fun language hl => ?_, fun effect hm => ?_⟩
  · dsimp only [Setup.returned] at hl
    split at hl <;> cases hl
  · rcases Setup.eq_of_mem_delivered hm with rfl | rfl
    · exact not_exists.mpr spared
    · exact not_exists.mpr spared

theorem secure_request (name : String) (arguments : Table Value) (seconds : Float) :
    Secure Answer.Spares (request name arguments seconds) :=
  .bind (secure_answer name arguments) fun a ha => .bind (secure_answerTokens a.parts) fun _ _ =>
    .bind (secure_report fun _ ht => ha.errorText ht) fun _ _ => .pure ha

end Action
end CodeIndex
