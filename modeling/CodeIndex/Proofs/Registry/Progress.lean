import CodeIndex.Proofs.Registry.Coherence
import Mathlib.Tactic.Set

/-!
# CodeIndex.Proofs.Registry.Progress

How far attempts and calls get in a run. Neither ever goes back.

* `hasBegun`: the loader has been called for an attempt. `hasBegun_run`: a run calls the loader for an
  attempt once if the attempt begins in it, and not at all otherwise.
* `finish_mem_of_outcome?`: attempts have the outcomes that they were finished with.
* `call_run`: a call keeps its name and its attempt. One that is over keeps its status, and one that is
  not cancelled waits or has an answer.
* `Coherent.answered`: a call that waits has an answer when its attempt has run and it has woken up.
-/

namespace CodeIndex

/-- The attempt that an event brings forward. -/
def Event.attempt? : Event → Option Nat
  | .start k | .finish k _ => some k
  | .call _ | .cancel _ | .wake _ => none

def Effect.isLoad : Effect → Bool
  | .load _ => true
  | .read _ | .vocabulary _ | .log _ | .event _ | .shown _ => false

/-- The loader has been called for an attempt that is this far. -/
def Progress.hasBegun : Progress → Bool
  | .scheduled => false
  | .running | .finished _ => true

/-- Waits or has an answer: nothing has been heard of a cancellation. -/
def CallStatus.isUncancelled : CallStatus → Bool
  | .waiting | .returned | .raised _ => true
  | .cancelling | .cancelled => false

namespace Registry

variable {r r' : Registry} {e : Event} {effects : List Effect}

def hasBegun (r : Registry) (k : Nat) : Bool :=
  match r.attempts[k]? with
  | some a => a.progress.hasBegun
  | none => false

/-- How often the loader is called for an attempt in a run. -/
def loaderCalls (k : Nat) (r : Registry) : List Event → Nat
  | [] => 0
  | e :: events =>
    (if e.attempt? = some k then (r.step e).2.countP Effect.isLoad else 0) +
      loaderCalls k (r.step e).1 events

theorem hasBegun_of_getElem? {k : Nat} {a : Attempt} (h : r.attempts[k]? = some a) :
    r.hasBegun k = a.progress.hasBegun := by
  simp [hasBegun, h]

/-! ## Attempts -/

theorem hasBegun_set {k j : Nat} {name : String} {p p' : Progress}
    (hk : r.attempts[k]? = some ⟨name, p⟩) :
    (r.setProgress k name p').hasBegun j = if k = j then p'.hasBegun else r.hasBegun j := by
  unfold hasBegun
  rw [attempts_setProgress, List.getElem?_set]
  by_cases he : k = j
  · subst he
    simp [(List.getElem?_eq_some_iff.mp hk).1]
  · simp [he]

theorem hasBegun_schedule (r : Registry) (name : String) (k : Nat) :
    (r.schedule name).hasBegun k = r.hasBegun k := by
  unfold hasBegun
  rw [getElem?_schedule]
  split_ifs with hk
  · rw [hk, getElem?_attempts_length]
    rfl
  · rfl

@[simp] theorem hasBegun_addCall (r : Registry) (c : LoadCall) (k : Nat) :
    (r.addCall c).hasBegun k = r.hasBegun k := rfl
@[simp] theorem hasBegun_setStatus (r : Registry) (i : Nat) (c : LoadCall) (s : CallStatus)
    (k : Nat) : (r.setStatus i c s).hasBegun k = r.hasBegun k := rfl
@[simp] theorem hasBegun_release (r : Registry) (name : String) (j k : Nat) :
    (r.release name j).hasBegun k = r.hasBegun k := by
  simp [hasBegun]

/-- An attempt that gets further has called the loader `n` times on the way. -/
theorem hasBegun_setProgress {j n : Nat} {name : String} {p p' : Progress}
    (hj : r.attempts[j]? = some ⟨name, p⟩) (h : p.hasBegun.toNat + n = p'.hasBegun.toNat) (k : Nat) :
    (r.hasBegun k).toNat + (if j = k then n else 0) =
      ((r.setProgress j name p').hasBegun k).toNat := by
  rw [hasBegun_set hj]
  by_cases he : j = k
  · subst he
    rw [if_pos rfl, if_pos rfl, hasBegun_of_getElem? hj, h]
  · rw [if_neg he, if_neg he, Nat.add_zero]

/-- An event calls the loader for an attempt just when the attempt begins with it. -/
theorem Does.hasBegun (h : Does r e r' effects) (k : Nat) :
    (r.hasBegun k).toNat + (if e.attempt? = some k then effects.countP Effect.isLoad else 0) =
      (r'.hasBegun k).toNat := by
  cases h with
  | idle => simp
  | present | joined | answered => simp [Event.attempt?]
  | scheduled => simp [Event.attempt?, hasBegun_schedule]
  | cancelled | woken | left => simp [Event.attempt?]
  | started found =>
    simpa [Event.attempt?, Effect.isLoad] using hasBegun_setProgress (n := 1) found rfl k
  | @succeeded j name g found =>
    change _ = ((r.setProgress j name (.finished (.ok g))).hasBegun k).toNat
    simpa [Event.attempt?, Effect.isLoad] using hasBegun_setProgress (n := 0) found rfl k
  | failed found =>
    simpa [Event.attempt?, Effect.isLoad] using hasBegun_setProgress (n := 0) found rfl k

theorem hasBegun_run (r : Registry) (k : Nat) (events : List Event) :
    (r.hasBegun k).toNat + r.loaderCalls k events = ((r.run events).1.hasBegun k).toNat := by
  induction events generalizing r with
  | nil => rfl
  | cons e events ih =>
    rw [run_cons, loaderCalls, ← Nat.add_assoc, (step_does r e).hasBegun k, ih]

/-- Only its end gives an attempt an outcome. -/
theorem Does.outcome {k : Nat} {o : Except LoadFault Grammar} (h : Does r e r' effects)
    (ho : r'.outcome? k = some o) : r.outcome? k = some o ∨ e = .finish k o := by
  have set : ∀ {j : Nat} {name : String} {p p' : Progress}, r.attempts[j]? = some ⟨name, p⟩ →
      (r.setProgress j name p').outcome? k = some o →
        r.outcome? k = some o ∨ j = k ∧ p' = .finished o := by
    intro j name p p' hj hk
    obtain ⟨other, hk⟩ := outcome?_eq_some_iff.mp hk
    rcases (Coherent.getElem?_setProgress hj).mp hk with ⟨rfl, -, hp⟩ | ⟨-, hk⟩
    · exact .inr ⟨rfl, hp.symm⟩
    · exact .inl (outcome?_eq_some_iff.mpr ⟨other, hk⟩)
  cases h with
  | idle | present | joined | cancelled => exact .inl ho
  | answered | woken | left => exact .inl (by simpa using ho)
  | scheduled => exact .inl (by rwa [outcome?_addCall, outcome?_schedule] at ho)
  | started found =>
    rcases set found ho with ho | ⟨-, hp⟩
    · exact .inl ho
    · cases hp
  | succeeded found | failed found =>
    rcases set found ho with ho | ⟨rfl, hp⟩
    · exact .inl ho
    · cases hp
      exact .inr rfl

theorem finish_mem_of_outcome? {k : Nat} {o : Except LoadFault Grammar} {events : List Event}
    (ho : (r.run events).1.outcome? k = some o) : r.outcome? k = some o ∨ .finish k o ∈ events := by
  induction events generalizing r with
  | nil => exact .inl ho
  | cons e events ih =>
    rcases ih ho with hs | hm
    · rcases (step_does r e).outcome hs with hr | rfl
      · exact .inl hr
      · exact .inr List.mem_cons_self
    · exact .inr (List.mem_cons_of_mem e hm)

/-! ## Calls -/

theorem getElem?_calls_set {i j : Nat} {c d : LoadCall} {s : CallStatus}
    (hi : r.calls[i]? = some c) (hj : r.calls[j]? = some d) :
    (r.setStatus j d s).calls[i]? = some (if j = i then { c with status := s } else c) := by
  rw [calls_setStatus, List.getElem?_set]
  by_cases he : j = i
  · subst he
    rw [hi] at hj
    cases hj
    simp [(List.getElem?_eq_some_iff.mp hi).1]
  · simp [he, hi]

theorem getElem?_calls_addCall {i : Nat} {c d : LoadCall} (hi : r.calls[i]? = some c) :
    (r.addCall d).calls[i]? = some c := by
  rw [calls_addCall, List.getElem?_append_left (List.getElem?_eq_some_iff.mp hi).1, hi]

/-- What may have become of a call: one that is over keeps its status, and one that is not cancelled
waits or has an answer. -/
structure Continues (c : LoadCall) (uncancelled : Prop) (s : CallStatus) : Prop where
  closed : c.status.isOver = true → s = c.status
  uncancelled : c.status.isUncancelled = true → uncancelled → s.isUncancelled = true

theorem Continues.refl (c : LoadCall) (p : Prop) : Continues c p c.status :=
  ⟨fun _ => rfl, fun h _ => h⟩

/-- A call that is not over is given another status by an event. -/
theorem continues_set {i j : Nat} {c d : LoadCall} {s : CallStatus} {p : Prop}
    (hi : r.calls[i]? = some c) (hj : r.calls[j]? = some d) (unfinished : d.status.isOver = false)
    (hs : j = i → d.status.isUncancelled = true → p → s.isUncancelled = true) :
    ∃ s', (r.setStatus j d s).calls[i]? = some { c with status := s' } ∧ Continues c p s' := by
  rw [getElem?_calls_set hi hj]
  by_cases he : j = i
  · subst he
    rw [hi] at hj
    cases hj
    rw [if_pos rfl]
    exact ⟨s, rfl, fun ho => (by rw [unfinished] at ho; cases ho), hs rfl⟩
  · rw [if_neg he]
    exact ⟨c.status, rfl, .refl c p⟩

/-- What an event does to one call. -/
theorem Does.call {i : Nat} {c : LoadCall} (h : Does r e r' effects) (hi : r.calls[i]? = some c) :
    ∃ s, r'.calls[i]? = some { c with status := s } ∧ Continues c (e ≠ .cancel i) s := by
  cases h with
  | idle => exact ⟨_, hi, .refl c _⟩
  | present | joined => exact ⟨_, getElem?_calls_addCall hi, .refl c _⟩
  | scheduled => exact ⟨_, getElem?_calls_addCall hi, .refl c _⟩
  | answered => exact ⟨_, getElem?_calls_addCall (by rw [calls_release]; exact hi), .refl c _⟩
  | cancelled found waits =>
    exact continues_set hi found (by rw [waits]; rfl) fun he _ hc => absurd (by rw [he]) hc
  | @woken j k d outcome found serves waits finished =>
    rw [← calls_release r d.name k] at hi found
    refine continues_set hi found (by rw [waits]; rfl) fun _ _ _ => ?_
    cases outcome <;> rfl
  | @left j k d found serves leaves =>
    rw [← calls_release r d.name k] at hi found
    refine continues_set hi found (by rw [leaves]; rfl) fun _ hu _ => ?_
    rw [leaves] at hu
    cases hu
  | started | succeeded | failed => exact ⟨_, hi, .refl c _⟩

theorem call_run {i : Nat} {c : LoadCall} (hi : r.calls[i]? = some c) (events : List Event) :
    ∃ s, (r.run events).1.calls[i]? = some { c with status := s } ∧
      Continues c (.cancel i ∉ events) s := by
  induction events generalizing r c with
  | nil => exact ⟨c.status, hi, .refl c _⟩
  | cons e events ih =>
    obtain ⟨s, hs, first⟩ := (step_does r e).call hi
    obtain ⟨s', hs', next⟩ := ih hs
    refine ⟨s', hs', fun ho => ?_, fun hu hn => ?_⟩
    · have he := first.closed ho
      rw [next.closed (by rw [he]; exact ho), he]
    · rw [List.mem_cons, not_or] at hn
      exact next.uncancelled (first.uncancelled hu (Ne.symm hn.1)) hn.2

/-! ## Answers -/

/-- After its start an attempt runs or has ended, unless there is no such attempt. -/
theorem step_start {k : Nat} {name : String} {p : Progress} (hk : r.attempts[k]? = some ⟨name, p⟩) :
    ∃ p', (r.step (.start k)).1.attempts[k]? = some ⟨name, p'⟩ ∧ p'.hasBegun = true ∧
      p'.outcome? = p.outcome? := by
  cases p with
  | scheduled =>
    refine ⟨.running, ?_, rfl, rfl⟩
    show (r.start k).1.attempts[k]? = _
    rw [start_scheduled hk]
    exact (Coherent.getElem?_setProgress hk).mpr (.inl ⟨rfl, rfl, rfl⟩)
  | running => exact ⟨.running, by simp [step, start, hk], rfl, rfl⟩
  | finished o => exact ⟨.finished o, by simp [step, start, hk], rfl, rfl⟩

/-- After its end an attempt that ran has an outcome, and one that had ended before keeps its own. -/
theorem step_finish {k : Nat} {name : String} {p : Progress} (o : Except LoadFault Grammar)
    (hk : r.attempts[k]? = some ⟨name, p⟩) (begun : p.hasBegun = true) :
    (r.step (.finish k o)).1.outcome? k = some (p.outcome?.getD o) := by
  cases p with
  | scheduled => cases begun
  | running =>
    have hset : (r.setProgress k name (.finished o)).attempts[k]? = some ⟨name, .finished o⟩ :=
      (Coherent.getElem?_setProgress hk).mpr (.inl ⟨rfl, rfl, rfl⟩)
    show (r.finish k o).1.outcome? k = _
    rw [finish_running hk]
    cases o <;> exact outcome?_of_getElem? hset
  | finished o' =>
    have hs : r.step (.finish k o) = (r, []) := by simp [step, finish, hk]
    rw [hs]
    exact outcome?_of_getElem? hk

theorem calls_step_start (r : Registry) (k : Nat) : (r.step (.start k)).1.calls = r.calls := by
  show (r.start k).1.calls = _
  unfold start
  split <;> rfl

theorem calls_step_finish (r : Registry) (k : Nat) (o : Except LoadFault Grammar) :
    (r.step (.finish k o)).1.calls = r.calls := by
  show (r.finish k o).1.calls = _
  unfold finish
  split
  · cases o <;> rfl
  · rfl

/-- A call that waits is answered as soon as its attempt has started, has ended, and the call has
woken up. The answer is the outcome of its attempt, which is `o` if it was open until then. -/
theorem Coherent.answered (h : Coherent r) {i k : Nat} {c : LoadCall} (hi : r.calls[i]? = some c)
    (serves : c.attempt = some k) (waits : c.status = .waiting) (o : Except LoadFault Grammar) :
    let s := (r.run [.start k, .finish k o, .wake i]).1
    s.calls[i]? = some { c with status := statusOf ((r.outcome? k).getD o) } ∧
      s.outcome? k = some ((r.outcome? k).getD o) := by
  obtain ⟨p, hp⟩ := (h.call c (List.mem_of_getElem? hi)).attempt serves
  obtain ⟨p', hp', begun, hout⟩ := step_start hp
  set r₁ := (r.step (.start k)).1 with hr₁
  set r₂ := (r₁.step (.finish k o)).1 with hr₂
  have ho : r₂.outcome? k = some ((r.outcome? k).getD o) := by
    rw [hr₂, step_finish o hp' begun, hout, outcome?_of_getElem? hp]
  have hc : r₂.calls[i]? = some c := by
    rw [hr₂, calls_step_finish, hr₁, calls_step_start, hi]
  have hw := wake_finished hc serves waits ho
  show (r₂.wake i).calls[i]? = _ ∧ (r₂.wake i).outcome? k = _
  rw [hw]
  refine ⟨?_, by rw [outcome?_setStatus, outcome?_release, ho]⟩
  rw [getElem?_calls_set (by rwa [calls_release]) (by rwa [calls_release]), if_pos rfl]

end Registry
end CodeIndex
