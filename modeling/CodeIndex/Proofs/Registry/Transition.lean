import CodeIndex.Registry
import Mathlib.Tactic.SplitIfs

/-!
# CodeIndex.Proofs.Registry.Transition

What the events of a registry do, said once.

* `Does r e r' effects`: what an event can do, with what must be so before it. `step_does` says that
  `step` does nothing else, and the later modules argue by cases on it.
* `call_*`, `start_scheduled`, `finish_running`, `wake_*`: each transition where it can happen.
* `run_append`, `run_of_idle`: runs in parts, and runs in which nothing happens.
* `step_sameFor`: an event is about one name and leaves all other names as they are.
-/

namespace CodeIndex

namespace CallStatus

/-- The call has ended with an answer, and not by being cancelled. -/
def isAnswer : CallStatus → Bool
  | .returned | .raised _ => true
  | .waiting | .cancelling | .cancelled => false

/-- The call has ended. -/
def isOver : CallStatus → Bool
  | .returned | .raised _ | .cancelled => true
  | .waiting | .cancelling => false

theorem isOver_of_isAnswer {s : CallStatus} (h : s.isAnswer = true) : s.isOver = true := by
  cases s <;> simp_all [isAnswer, isOver]

end CallStatus

/-- The language that a call asks for. -/
def Event.language? : Event → Option String
  | .call language => some language
  | .cancel _ | .start _ | .finish _ _ | .wake _ => none

theorem Event.eq_call_of_language? {e : Event} {language : String}
    (h : e.language? = some language) : e = .call language := by
  cases e <;> simp_all [Event.language?]

/-- The outcome of an attempt that is this far. -/
def Progress.outcome? : Progress → Option (Except LoadFault Grammar)
  | .finished outcome => some outcome
  | .scheduled | .running => none

namespace Registry

variable {r r' : Registry} {e : Event} {effects : List Effect}

@[simp] theorem isAnswer_statusOf (outcome : Except LoadFault Grammar) :
    (statusOf outcome).isAnswer = true := by
  cases outcome <;> rfl

/-! ## The parts after each operation -/

@[simp] theorem grammars_addCall (r : Registry) (c : LoadCall) :
    (r.addCall c).grammars = r.grammars := rfl
@[simp] theorem pending_addCall (r : Registry) (c : LoadCall) :
    (r.addCall c).pending = r.pending := rfl
@[simp] theorem attempts_addCall (r : Registry) (c : LoadCall) :
    (r.addCall c).attempts = r.attempts := rfl
@[simp] theorem calls_addCall (r : Registry) (c : LoadCall) :
    (r.addCall c).calls = r.calls ++ [c] := rfl
@[simp] theorem outcome?_addCall (r : Registry) (c : LoadCall) (k : Nat) :
    (r.addCall c).outcome? k = r.outcome? k := rfl

@[simp] theorem grammars_setStatus (r : Registry) (i : Nat) (c : LoadCall) (s : CallStatus) :
    (r.setStatus i c s).grammars = r.grammars := rfl
@[simp] theorem pending_setStatus (r : Registry) (i : Nat) (c : LoadCall) (s : CallStatus) :
    (r.setStatus i c s).pending = r.pending := rfl
@[simp] theorem attempts_setStatus (r : Registry) (i : Nat) (c : LoadCall) (s : CallStatus) :
    (r.setStatus i c s).attempts = r.attempts := rfl
@[simp] theorem calls_setStatus (r : Registry) (i : Nat) (c : LoadCall) (s : CallStatus) :
    (r.setStatus i c s).calls = r.calls.set i { c with status := s } := rfl
@[simp] theorem outcome?_setStatus (r : Registry) (i : Nat) (c : LoadCall) (s : CallStatus) (k : Nat) :
    (r.setStatus i c s).outcome? k = r.outcome? k := rfl

@[simp] theorem grammars_setProgress (r : Registry) (k : Nat) (name : String) (p : Progress) :
    (r.setProgress k name p).grammars = r.grammars := rfl
@[simp] theorem pending_setProgress (r : Registry) (k : Nat) (name : String) (p : Progress) :
    (r.setProgress k name p).pending = r.pending := rfl
@[simp] theorem attempts_setProgress (r : Registry) (k : Nat) (name : String) (p : Progress) :
    (r.setProgress k name p).attempts = r.attempts.set k ⟨name, p⟩ := rfl
@[simp] theorem calls_setProgress (r : Registry) (k : Nat) (name : String) (p : Progress) :
    (r.setProgress k name p).calls = r.calls := rfl

@[simp] theorem grammars_schedule (r : Registry) (name : String) :
    (r.schedule name).grammars = r.grammars := rfl
@[simp] theorem attempts_schedule (r : Registry) (name : String) :
    (r.schedule name).attempts = r.attempts ++ [⟨name, .scheduled⟩] := rfl
@[simp] theorem calls_schedule (r : Registry) (name : String) :
    (r.schedule name).calls = r.calls := rfl

theorem getElem?_attempts_length (r : Registry) : r.attempts[r.attempts.length]? = none :=
  List.getElem?_eq_none (Nat.le_refl _)

theorem getElem?_schedule (r : Registry) (name : String) (k : Nat) :
    (r.schedule name).attempts[k]? =
      if k = r.attempts.length then some ⟨name, .scheduled⟩ else r.attempts[k]? := by
  rw [attempts_schedule]
  rcases Nat.lt_trichotomy k r.attempts.length with hk | rfl | hk
  · rw [List.getElem?_append_left hk, if_neg (Nat.ne_of_lt hk)]
  · rw [List.getElem?_concat_length, if_pos rfl]
  · rw [if_neg (Nat.ne_of_gt hk), List.getElem?_eq_none (by simp; omega),
      List.getElem?_eq_none (Nat.le_of_lt hk)]

theorem getElem?_schedule_of_some {k : Nat} {a : Attempt} (name : String)
    (hk : r.attempts[k]? = some a) : (r.schedule name).attempts[k]? = some a := by
  have hlt := (List.getElem?_eq_some_iff.mp hk).1
  rw [getElem?_schedule, if_neg (Nat.ne_of_lt hlt), hk]

/-- An attempt after one has been made was there before, or it is the new one. -/
theorem getElem?_schedule_cases {k : Nat} {a : Attempt} {name : String}
    (hk : (r.schedule name).attempts[k]? = some a) :
    r.attempts[k]? = some a ∨ k = r.attempts.length ∧ a = ⟨name, .scheduled⟩ := by
  rw [getElem?_schedule] at hk
  split at hk
  · rename_i he
    cases hk
    exact .inr ⟨he, rfl⟩
  · exact .inl hk

theorem get?_pending_schedule (r : Registry) (name other : String) :
    (r.schedule name).pending.get? other =
      if name = other then some r.attempts.length else r.pending.get? other :=
  Table.get?_insert r.pending name other r.attempts.length

theorem outcome?_of_getElem? {k : Nat} {a : Attempt} (h : r.attempts[k]? = some a) :
    r.outcome? k = a.progress.outcome? := by
  unfold outcome?
  rw [h]
  obtain ⟨name, p⟩ := a
  cases p <;> rfl

theorem outcome?_eq_some_iff {k : Nat} {outcome : Except LoadFault Grammar} :
    r.outcome? k = some outcome ↔ ∃ name, r.attempts[k]? = some ⟨name, .finished outcome⟩ := by
  constructor
  · intro h
    unfold outcome? at h
    split at h
    · rename_i name o hk
      cases h
      exact ⟨name, hk⟩
    · cases h
  · rintro ⟨name, hk⟩
    exact outcome?_of_getElem? hk

theorem outcome?_schedule (r : Registry) (name : String) (k : Nat) :
    (r.schedule name).outcome? k = r.outcome? k := by
  unfold outcome?
  rw [getElem?_schedule]
  split_ifs with hk
  · rw [hk, getElem?_attempts_length]
  · rfl

/-! ## Taking an attempt out of the pending ones -/

section Release

variable (r) (name : String) (k : Nat)

@[simp] theorem grammars_release : (r.release name k).grammars = r.grammars := by
  unfold release; split <;> rfl

@[simp] theorem attempts_release : (r.release name k).attempts = r.attempts := by
  unfold release; split <;> rfl

@[simp] theorem calls_release : (r.release name k).calls = r.calls := by
  unfold release; split <;> rfl

@[simp] theorem outcome?_release (j : Nat) : (r.release name k).outcome? j = r.outcome? j := by
  simp [outcome?]

theorem release_addCall (c : LoadCall) :
    (r.addCall c).release name k = (r.release name k).addCall c := by
  by_cases h : (r.outcome? k).isSome ∧ r.pending.get? name = some k
  · have h' : ((r.addCall c).outcome? k).isSome ∧ (r.addCall c).pending.get? name = some k := h
    rw [release, release, if_pos h, if_pos h']
    rfl
  · have h' : ¬(((r.addCall c).outcome? k).isSome ∧ (r.addCall c).pending.get? name = some k) := h
    rw [release, release, if_neg h, if_neg h']

theorem release_setStatus (i : Nat) (c : LoadCall) (s : CallStatus) :
    (r.setStatus i c s).release name k = (r.release name k).setStatus i c s := by
  by_cases h : (r.outcome? k).isSome ∧ r.pending.get? name = some k
  · have h' : ((r.setStatus i c s).outcome? k).isSome ∧
        (r.setStatus i c s).pending.get? name = some k := h
    rw [release, release, if_pos h, if_pos h']
    rfl
  · have h' : ¬(((r.setStatus i c s).outcome? k).isSome ∧
        (r.setStatus i c s).pending.get? name = some k) := h
    rw [release, release, if_neg h, if_neg h']

variable {r name k}

theorem pending_release_other {other : String} (h : name ≠ other) :
    (r.release name k).pending.get? other = r.pending.get? other := by
  unfold release
  split
  · simp [Table.get?_erase, h]
  · rfl

theorem pending_of_pending_release {other : String} {j : Nat}
    (h : (r.release name k).pending.get? other = some j) : r.pending.get? other = some j := by
  unfold release at h
  split at h
  · rw [Table.get?_erase] at h
    split at h
    · cases h
    · exact h
  · exact h

theorem pending_release_ne (h : (r.outcome? k).isSome) :
    (r.release name k).pending.get? name ≠ some k := by
  unfold release
  split
  · simp [Table.get?_erase]
  · rename_i hn
    exact fun hk => hn ⟨h, hk⟩

theorem pending_release_of_unfinished {other : String} {j : Nat}
    (h : r.pending.get? other = some j) (hj : r.outcome? j = none) :
    (r.release name k).pending.get? other = some j := by
  unfold release
  split
  · rename_i hk
    rw [Table.get?_erase, if_neg, h]
    rintro rfl
    rw [hk.2] at h
    cases h
    simp [hj] at hk
  · exact h

end Release

/-! ## What an event does -/

/-- What an event does to a registry, with its effects. Only a call always does something. -/
inductive Does (r : Registry) : Event → Registry → List Effect → Prop where
  | idle {e : Event} (uncalled : e.language? = none) : Does r e r []
  | present {language name : String} {g : Grammar} (named : Language.normalize language = name)
      (registered : r.grammars.get? name = some g) :
      Does r (.call language) (r.addCall ⟨name, none, .returned⟩) [.log (.alreadyLoaded name)]
  | joined {language name : String} {k : Nat} (named : Language.normalize language = name)
      (unregistered : r.grammars.get? name = none) (waits : r.pending.get? name = some k)
      (unfinished : r.outcome? k = none) :
      Does r (.call language) (r.addCall ⟨name, some k, .waiting⟩) []
  | answered {language name : String} {k : Nat} {outcome : Except LoadFault Grammar}
      (named : Language.normalize language = name) (unregistered : r.grammars.get? name = none)
      (waits : r.pending.get? name = some k) (finished : r.outcome? k = some outcome) :
      Does r (.call language) ((r.release name k).addCall ⟨name, some k, statusOf outcome⟩) []
  | scheduled {language name : String} (named : Language.normalize language = name)
      (unregistered : r.grammars.get? name = none) (free : r.pending.get? name = none) :
      Does r (.call language)
        ((r.schedule name).addCall ⟨name, some r.attempts.length, .waiting⟩) []
  | cancelled {i : Nat} {c : LoadCall} (found : r.calls[i]? = some c) (waits : c.status = .waiting) :
      Does r (.cancel i) (r.setStatus i c .cancelling) []
  | woken {i k : Nat} {c : LoadCall} {outcome : Except LoadFault Grammar}
      (found : r.calls[i]? = some c) (serves : c.attempt = some k) (waits : c.status = .waiting)
      (finished : r.outcome? k = some outcome) :
      Does r (.wake i) ((r.release c.name k).setStatus i c (statusOf outcome)) []
  | left {i k : Nat} {c : LoadCall} (found : r.calls[i]? = some c) (serves : c.attempt = some k)
      (leaves : c.status = .cancelling) :
      Does r (.wake i) ((r.release c.name k).setStatus i c .cancelled) []
  | started {k : Nat} {name : String} (found : r.attempts[k]? = some ⟨name, .scheduled⟩) :
      Does r (.start k) (r.setProgress k name .running) [.load name]
  | succeeded {k : Nat} {name : String} {g : Grammar}
      (found : r.attempts[k]? = some ⟨name, .running⟩) :
      Does r (.finish k (.ok g))
        { r.setProgress k name (.finished (.ok g)) with grammars := r.grammars.insert name g }
        [.log (.loaded name)]
  | failed {k : Nat} {name : String} {fault : LoadFault}
      (found : r.attempts[k]? = some ⟨name, .running⟩) :
      Does r (.finish k (.error fault)) (r.setProgress k name (.finished (.error fault)))
        [.log (.loadFailed name fault)]

/-! ## A call that waits for a finished attempt -/

theorem wake_finished {i k : Nat} {c : LoadCall} {outcome : Except LoadFault Grammar}
    (hi : r.calls[i]? = some c) (hk : c.attempt = some k) (hs : c.status = .waiting)
    (ho : r.outcome? k = some outcome) :
    r.wake i = (r.release c.name k).setStatus i c (statusOf outcome) := by
  rw [← release_setStatus]
  simp [wake, hi, hk, hs, ho]

theorem wake_cancelling {i k : Nat} {c : LoadCall} (hi : r.calls[i]? = some c)
    (hk : c.attempt = some k) (hs : c.status = .cancelling) :
    r.wake i = (r.release c.name k).setStatus i c .cancelled := by
  rw [← release_setStatus]
  simp [wake, hi, hk, hs]

theorem wake_unfinished {i k : Nat} {c : LoadCall} (hi : r.calls[i]? = some c)
    (hk : c.attempt = some k) (hs : c.status = .waiting) (ho : r.outcome? k = none) :
    r.wake i = r := by
  simp [wake, hi, hk, hs, ho]

theorem wake_over {i : Nat} {c : LoadCall} (hi : r.calls[i]? = some c) (hs : c.status.isOver = true) :
    r.wake i = r := by
  unfold wake
  rw [hi]
  cases c with
  | mk name attempt status =>
    cases status <;> cases attempt <;> first | rfl | simp [CallStatus.isOver] at hs

section Call

variable {language name : String} (named : Language.normalize language = name)

include named

theorem call_registered {g : Grammar} (h : r.grammars.get? name = some g) :
    r.call language = (r.addCall ⟨name, none, .returned⟩, [.log (.alreadyLoaded name)]) := by
  simp [call, Table.contains, named, h]

theorem call_free (h : r.grammars.get? name = none) (hp : r.pending.get? name = none) :
    r.call language =
      ((r.schedule name).addCall ⟨name, some r.attempts.length, .waiting⟩, []) := by
  simp [call, Table.contains, named, h, hp]

theorem call_pending {k : Nat} (h : r.grammars.get? name = none)
    (hp : r.pending.get? name = some k) :
    r.call language = ((r.addCall ⟨name, some k, .waiting⟩).wake r.calls.length, []) := by
  simp [call, Table.contains, named, h, hp]

theorem call_unfinished {k : Nat} (h : r.grammars.get? name = none)
    (hp : r.pending.get? name = some k) (ho : r.outcome? k = none) :
    r.call language = (r.addCall ⟨name, some k, .waiting⟩, []) := by
  have hi : (r.addCall ⟨name, some k, .waiting⟩).calls[r.calls.length]? =
      some ⟨name, some k, .waiting⟩ := by simp
  rw [call_pending named h hp, wake_unfinished hi rfl rfl ho]

theorem call_finished {k : Nat} {outcome : Except LoadFault Grammar}
    (h : r.grammars.get? name = none) (hp : r.pending.get? name = some k)
    (ho : r.outcome? k = some outcome) :
    r.call language = ((r.release name k).addCall ⟨name, some k, statusOf outcome⟩, []) := by
  have hi : (r.addCall ⟨name, some k, .waiting⟩).calls[r.calls.length]? =
      some ⟨name, some k, .waiting⟩ := by simp
  rw [call_pending named h hp, wake_finished hi rfl rfl ho, release_addCall]
  simp [setStatus, addCall]

end Call

theorem start_scheduled {k : Nat} {name : String} (h : r.attempts[k]? = some ⟨name, .scheduled⟩) :
    r.start k = (r.setProgress k name .running, [.load name]) := by
  simp [start, h]

theorem finish_running {k : Nat} {name : String} {outcome : Except LoadFault Grammar}
    (h : r.attempts[k]? = some ⟨name, .running⟩) :
    r.finish k outcome =
      match outcome with
      | .ok g => ({ r.setProgress k name (.finished (.ok g)) with
          grammars := r.grammars.insert name g }, [.log (.loaded name)])
      | .error fault =>
        (r.setProgress k name (.finished (.error fault)), [.log (.loadFailed name fault)]) := by
  cases outcome <;> simp [finish, h]

theorem step_does (r : Registry) (e : Event) : Does r e (r.step e).1 (r.step e).2 := by
  cases e with
  | call language =>
    show Does r _ (r.call language).1 (r.call language).2
    obtain ⟨name, named⟩ : ∃ name, Language.normalize language = name := ⟨_, rfl⟩
    cases hg : r.grammars.get? name with
    | some g => rw [call_registered named hg]; exact .present named hg
    | none =>
      cases hp : r.pending.get? name with
      | none => rw [call_free named hg hp]; exact .scheduled named hg hp
      | some k =>
        cases ho : r.outcome? k with
        | none => rw [call_unfinished named hg hp ho]; exact .joined named hg hp ho
        | some outcome => rw [call_finished named hg hp ho]; exact .answered named hg hp ho
  | cancel i =>
    show Does r _ (r.cancel i) []
    unfold cancel
    split
    · rename_i c hc
      split
      · rename_i hs
        exact .cancelled hc hs
      · exact .idle rfl
    · exact .idle rfl
  | start k =>
    show Does r _ (r.start k).1 (r.start k).2
    unfold start
    split
    · rename_i name hk
      exact .started hk
    · exact .idle rfl
  | finish k outcome =>
    show Does r _ (r.finish k outcome).1 (r.finish k outcome).2
    unfold finish
    split
    · rename_i name hk
      cases outcome with
      | ok g => exact .succeeded hk
      | error fault => exact .failed hk
    · exact .idle rfl
  | wake i =>
    show Does r _ (r.wake i) []
    cases hc : r.calls[i]? with
    | none => simpa [wake, hc] using Does.idle (r := r) (e := .wake i) rfl
    | some c =>
      cases hk : c.attempt with
      | none => simpa [wake, hc, hk] using Does.idle (r := r) (e := .wake i) rfl
      | some k =>
        cases hs : c.status with
        | waiting =>
          cases ho : r.outcome? k with
          | none => rw [wake_unfinished hc hk hs ho]; exact .idle rfl
          | some outcome => rw [wake_finished hc hk hs ho]; exact .woken hc hk hs ho
        | cancelling => rw [wake_cancelling hc hk hs]; exact .left hc hk hs
        | returned => rw [wake_over hc (by rw [hs]; rfl)]; exact .idle rfl
        | raised fault => rw [wake_over hc (by rw [hs]; rfl)]; exact .idle rfl
        | cancelled => rw [wake_over hc (by rw [hs]; rfl)]; exact .idle rfl

/-! ## Runs -/

@[simp] theorem run_nil (r : Registry) : r.run [] = (r, []) := rfl

theorem run_cons (r : Registry) (e : Event) (events : List Event) :
    r.run (e :: events) = (((r.step e).1.run events).1, (r.step e).2 ++ ((r.step e).1.run events).2) :=
  rfl

theorem run_append (r : Registry) (a b : List Event) :
    r.run (a ++ b) = (((r.run a).1.run b).1, (r.run a).2 ++ ((r.run a).1.run b).2) := by
  induction a generalizing r with
  | nil => rfl
  | cons e a ih => rw [List.cons_append, run_cons, ih, run_cons, List.append_assoc]

theorem run_append_fst (r : Registry) (a b : List Event) :
    (r.run (a ++ b)).1 = ((r.run a).1.run b).1 := by
  rw [run_append]

theorem run_of_idle {events : List Event} (h : ∀ e ∈ events, r.step e = (r, [])) :
    r.run events = (r, []) := by
  induction events with
  | nil => rfl
  | cons e events ih =>
    rw [run_cons, h e List.mem_cons_self, ih fun e' he' => h e' (List.mem_cons_of_mem e he')]
    rfl

/-- What every step keeps, whatever it is, a run keeps. -/
theorem run_induction {P : Registry → Prop} (h : ∀ r e, P r → P (r.step e).1) (hr : P r)
    (events : List Event) : P (r.run events).1 := by
  induction events generalizing r with
  | nil => exact hr
  | cons e events ih =>
    rw [run_cons]
    exact ih (h r e hr)

/-! ## Names apart -/

end Registry

/-- The name that an event is about. -/
def Event.name? (r : Registry) : Event → Option String
  | .call language => some (Language.normalize language)
  | .cancel i | .wake i => (r.calls[i]?).map LoadCall.name
  | .start k | .finish k _ => (r.attempts[k]?).map Attempt.name

namespace Registry

variable {r r' : Registry} {e : Event} {effects : List Effect}

/-- Nothing has changed for a name: its registration, its pending attempt, how far its attempts
are, and its calls. -/
structure SameFor (name : String) (r r' : Registry) : Prop where
  grammar : r'.grammars.get? name = r.grammars.get? name
  pending : r'.pending.get? name = r.pending.get? name
  attempt : ∀ (k : Nat) (p : Progress),
    r'.attempts[k]? = some ⟨name, p⟩ ↔ r.attempts[k]? = some ⟨name, p⟩
  call : ∀ (i : Nat) (k : Option Nat) (s : CallStatus),
    r'.calls[i]? = some ⟨name, k, s⟩ ↔ r.calls[i]? = some ⟨name, k, s⟩

theorem SameFor.refl (name : String) (r : Registry) : SameFor name r r :=
  ⟨rfl, rfl, fun _ _ => .rfl, fun _ _ _ => .rfl⟩

theorem SameFor.trans {name : String} {r₁ r₂ r₃ : Registry} (h : SameFor name r₁ r₂)
    (h' : SameFor name r₂ r₃) : SameFor name r₁ r₃ where
  grammar := h'.grammar.trans h.grammar
  pending := h'.pending.trans h.pending
  attempt := fun k p => (h'.attempt k p).trans (h.attempt k p)
  call := fun i k s => (h'.call i k s).trans (h.call i k s)

theorem sameFor_addCall {name other : String} {attempt : Option Nat} {status : CallStatus}
    (h : name ≠ other) : SameFor other r (r.addCall ⟨name, attempt, status⟩) := by
  refine ⟨rfl, rfl, fun _ _ => .rfl, fun i k s => ?_⟩
  rw [calls_addCall, List.getElem?_append]
  split
  · exact .rfl
  · rename_i hi
    rw [List.getElem?_eq_none (Nat.le_of_not_lt hi), List.getElem?_singleton]
    constructor
    · intro hc
      split at hc
      · cases hc
        exact absurd rfl h
      · cases hc
    · intro hc
      cases hc

theorem sameFor_setStatus {other : String} {i : Nat} {c : LoadCall} {s : CallStatus}
    (hi : r.calls[i]? = some c) (h : c.name ≠ other) : SameFor other r (r.setStatus i c s) := by
  refine ⟨rfl, rfl, fun _ _ => .rfl, fun j k s' => ?_⟩
  rw [calls_setStatus, List.getElem?_set]
  split
  · rename_i hj
    subst hj
    rw [hi, if_pos (List.getElem?_eq_some_iff.mp hi).1]
    constructor
    · intro hc
      cases hc
      exact absurd rfl h
    · intro hc
      cases hc
      exact absurd rfl h
  · exact .rfl

theorem sameFor_release {name other : String} {k : Nat} (h : name ≠ other) :
    SameFor other r (r.release name k) :=
  ⟨by simp, pending_release_other h, fun _ _ => by simp, fun _ _ _ => by simp⟩

theorem sameFor_schedule {name other : String} (h : name ≠ other) :
    SameFor other r (r.schedule name) := by
  refine ⟨rfl, by rw [get?_pending_schedule, if_neg h], fun k p => ?_, fun _ _ _ => .rfl⟩
  constructor
  · intro hk
    rcases getElem?_schedule_cases hk with hk | ⟨-, ha⟩
    · exact hk
    · cases ha
      exact absurd rfl h
  · exact getElem?_schedule_of_some name

theorem sameFor_setProgress {name other : String} {k : Nat} {p p' : Progress}
    (hk : r.attempts[k]? = some ⟨name, p⟩) (h : name ≠ other) :
    SameFor other r (r.setProgress k name p') := by
  refine ⟨rfl, rfl, fun j q => ?_, fun _ _ _ => .rfl⟩
  rw [attempts_setProgress, List.getElem?_set]
  split
  · rename_i hj
    subst hj
    rw [hk, if_pos (List.getElem?_eq_some_iff.mp hk).1]
    constructor
    · intro ha
      cases ha
      exact absurd rfl h
    · intro ha
      cases ha
      exact absurd rfl h
  · exact .rfl

theorem Does.sameFor {other : String} (h : Does r e r' effects) (ho : e.name? r ≠ some other) :
    SameFor other r r' := by
  cases h with
  | idle => exact .refl other r
  | present named | joined named =>
    exact sameFor_addCall (by simpa [Event.name?, named] using ho)
  | @answered language name k outcome named =>
    have hn : name ≠ other := by simpa [Event.name?, named] using ho
    exact (sameFor_release hn).trans (sameFor_addCall hn)
  | @scheduled language name named =>
    have hn : name ≠ other := by simpa [Event.name?, named] using ho
    exact (sameFor_schedule hn).trans (sameFor_addCall hn)
  | cancelled found => exact sameFor_setStatus found (by simpa [Event.name?, found] using ho)
  | @woken i k c outcome found =>
    have hn : c.name ≠ other := by simpa [Event.name?, found] using ho
    exact (sameFor_release hn).trans (sameFor_setStatus (by simpa using found) hn)
  | @left i k c found =>
    have hn : c.name ≠ other := by simpa [Event.name?, found] using ho
    exact (sameFor_release hn).trans (sameFor_setStatus (by simpa using found) hn)
  | started found => exact sameFor_setProgress found (by simpa [Event.name?, found] using ho)
  | @succeeded k name g found =>
    have hn : name ≠ other := by simpa [Event.name?, found] using ho
    have hp : SameFor other r (r.setProgress k name (.finished (.ok g))) :=
      sameFor_setProgress found hn
    exact ⟨by rw [Table.get?_insert, if_neg hn], hp.pending, hp.attempt, hp.call⟩
  | failed found => exact sameFor_setProgress found (by simpa [Event.name?, found] using ho)

/-- An event about one name changes nothing for the others. -/
theorem step_sameFor (r : Registry) {e : Event} {other : String} (h : e.name? r ≠ some other) :
    SameFor other r (r.step e).1 :=
  (step_does r e).sameFor h

end Registry
end CodeIndex
