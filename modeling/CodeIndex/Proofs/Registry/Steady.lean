import CodeIndex.Proofs.Registry.Answer

/-!
# CodeIndex.Proofs.Registry.Steady

A registry over a loader that always answers the same for a name.

* `Conforms`: every attempt that has ended has the answer of the loader. Settling and all events but the
  end of an attempt keep this.
* `AtRest`: nothing is under way for a name. Events that are no calls leave such a name as it is.
* `Steady`: coherent, settled and conforming.
* `held?`: the outcome of an ended attempt that is still pending.
* `Gains`: from one registry to another, one name at most has taken on the answer of the loader. If it was
  not registered, nothing is held for it any more. The other names are as they were.
* `Steady.load`: a call in a steady registry ends with the answer of the loader, whatever was loaded or
  has failed before, and the registry gains the name of the call.
-/

namespace CodeIndex
namespace Registry

variable {answer : String → Except LoadFault Grammar} {r r' : Registry} {e : Event}
  {effects : List Effect} {name : String}

/-! ## Ended attempts have the answer of the loader -/

def Conforms (answer : String → Except LoadFault Grammar) (r : Registry) : Prop :=
  ∀ (k : Nat) (name : String) (o : Except LoadFault Grammar),
    r.attempts[k]? = some ⟨name, .finished o⟩ → o = answer name

/-- If the event is the end of an attempt, then with the answer for its name. -/
def Honest (answer : String → Except LoadFault Grammar) (r : Registry) (e : Event) : Prop :=
  ∀ k o, e = .finish k o → ∃ name p, r.attempts[k]? = some ⟨name, p⟩ ∧ o = answer name

theorem conforms_empty : Conforms answer {} := by
  intro k name o hk
  cases hk

theorem Conforms.of_attempts (h : Conforms answer r) (same : r'.attempts = r.attempts) :
    Conforms answer r' := by
  unfold Conforms
  rw [same]
  exact h

theorem Conforms.setProgress (h : Conforms answer r) {k : Nat} {p q : Progress}
    (hk : r.attempts[k]? = some ⟨name, p⟩) (hq : ∀ o, q = .finished o → o = answer name) :
    Conforms answer (r.setProgress k name q) := by
  intro j other o hj
  rcases (Coherent.getElem?_setProgress hk).mp hj with ⟨-, rfl, he⟩ | ⟨-, hj⟩
  · exact hq o he.symm
  · exact h j other o hj

theorem Conforms.does (h : Conforms answer r) (hd : Does r e r' effects) (honest : Honest answer r e) :
    Conforms answer r' := by
  cases hd with
  | idle => exact h
  | present | joined => exact h.of_attempts rfl
  | answered => exact h.of_attempts (by simp)
  | @scheduled language name =>
    intro k other o hk
    have hk : (r.schedule name).attempts[k]? = some ⟨other, .finished o⟩ := hk
    rcases getElem?_schedule_cases hk with hk | ⟨-, ha⟩
    · exact h k other o hk
    · cases ha
  | cancelled => exact h.of_attempts rfl
  | woken | left => exact h.of_attempts (by simp)
  | started found => exact h.setProgress found nofun
  | succeeded found =>
    obtain ⟨other, p, hk, ho⟩ := honest _ _ rfl
    rw [found] at hk
    cases hk
    refine (h.setProgress (q := .finished (.ok _)) found fun o he => ?_).of_attempts rfl
    cases he
    exact ho
  | failed found =>
    obtain ⟨other, p, hk, ho⟩ := honest _ _ rfl
    rw [found] at hk
    cases hk
    refine h.setProgress found fun o he => ?_
    cases he
    exact ho

/-- Attempts keep their names, so that the answers are still the right ones when their turn comes. -/
theorem Conforms.run (h : Conforms answer r) (coherent : r.Coherent) {events : List Event}
    (honest : ∀ e ∈ events, Honest answer r e) : Conforms answer (r.run events).1 := by
  induction events generalizing r with
  | nil => exact h
  | cons e events ih =>
    rw [List.forall_mem_cons] at honest
    refine ih (h.does (step_does r e) honest.1) (coherent.step e) fun e' he' k o hk => ?_
    obtain ⟨name, p, hp, ho⟩ := honest.2 e' he' k o hk
    obtain ⟨p', hp'⟩ := ((step_does r e).grows coherent).attempt hp
    exact ⟨name, p', hp', ho⟩

theorem honest_of_settleEvents (he : e ∈ r.settleEvents answer) : Honest answer r e := by
  rintro k o rfl
  simp only [settleEvents, List.mem_append, List.mem_map, List.mem_mapIdx] at he
  rcases he with (⟨j, -, hj⟩ | ⟨j, hlt, hj⟩) | ⟨j, -, hj⟩
  · cases hj
  · cases hj
    exact ⟨_, _, List.getElem?_eq_getElem hlt, rfl⟩
  · cases hj

theorem Conforms.settle (h : Conforms answer r) (coherent : r.Coherent) :
    Conforms answer (r.settle answer).1 :=
  h.run coherent fun _ he => honest_of_settleEvents he

/-! ## Names with nothing under way -/

structure AtRest (r : Registry) (name : String) : Prop where
  attempt : ∀ (k : Nat) (p : Progress), r.attempts[k]? = some ⟨name, p⟩ → p.outcome?.isSome = true
  call : ∀ (i : Nat) (c : LoadCall), r.calls[i]? = some c → c.name = name → c.status.isOver = true

theorem Settled.atRest (h : Settled r) (name : String) : AtRest r name where
  attempt k p hk := by
    have he := h.attempt k (List.getElem?_eq_some_iff.mp hk).1
    rwa [outcome?_of_getElem? hk] at he
  call i c hi _ := h.call i c hi

theorem SameFor.atRest (same : SameFor name r r') (h : AtRest r name) : AtRest r' name where
  attempt k p hk := h.attempt k p ((same.attempt k p).mp hk)
  call i c hi hn := by
    subst hn
    exact h.call i c ((same.call i c.attempt c.status).mp hi) rfl

theorem AtRest.step (h : AtRest r name) (uncalled : e.language? = none) :
    SameFor name r (r.step e).1 := by
  by_cases hn : e.name? r = some name
  · have hd := step_does r e
    generalize (r.step e).1 = r', (r.step e).2 = effects at hd
    cases hd with
    | idle => exact .refl name r
    | present | joined | answered | scheduled => cases uncalled
    | cancelled found waits =>
      have ended := h.call _ _ found (by simpa [Event.name?, found] using hn)
      rw [waits] at ended
      cases ended
    | woken found _ waits =>
      have ended := h.call _ _ found (by simpa [Event.name?, found] using hn)
      rw [waits] at ended
      cases ended
    | left found _ leaves =>
      have ended := h.call _ _ found (by simpa [Event.name?, found] using hn)
      rw [leaves] at ended
      cases ended
    | started found | succeeded found | failed found =>
      simp only [Event.name?, found, Option.map_some, Option.some.injEq] at hn
      subst hn
      cases h.attempt _ _ found
  · exact step_sameFor r hn

theorem AtRest.run (h : AtRest r name) {events : List Event}
    (uncalled : ∀ e ∈ events, e.language? = none) : SameFor name r (r.run events).1 := by
  induction events generalizing r with
  | nil => exact .refl name r
  | cons e events ih =>
    rw [List.forall_mem_cons] at uncalled
    have same := h.step uncalled.1
    exact same.trans (ih (same.atRest h) uncalled.2)

theorem uncalled_of_settleEvents (he : e ∈ r.settleEvents answer) : e.language? = none := by
  simp only [settleEvents, List.mem_append, List.mem_map, List.mem_mapIdx] at he
  rcases he with (⟨j, -, rfl⟩ | ⟨j, -, rfl⟩) | ⟨j, -, rfl⟩ <;> rfl

/-- A call and what it brings about concern one name. -/
theorem Settled.sameFor_call (h : Settled r) {language other : String}
    (hn : Language.normalize language ≠ other) (answer : String → Except LoadFault Grammar) :
    SameFor other r ((r.call language).1.settle answer).1 := by
  have call : SameFor other r (r.call language).1 :=
    step_sameFor r (e := .call language) (by simpa [Event.name?] using hn)
  exact call.trans
    ((call.atRest (h.atRest other)).run fun _ he => uncalled_of_settleEvents he)

/-- The outcome of the attempt that is pending for a name, if it has ended. -/
def held? (r : Registry) (name : String) : Option (Except LoadFault Grammar) :=
  (r.pending.get? name).bind r.outcome?

theorem SameFor.held? (same : SameFor name r r') (coherent : r.Coherent) :
    r'.held? name = r.held? name := by
  unfold Registry.held?
  rw [same.pending]
  cases hp : r.pending.get? name with
  | none => rfl
  | some k =>
    obtain ⟨p, hk⟩ := coherent.pending hp
    simp only [Option.bind_some]
    rw [outcome?_of_getElem? hk, outcome?_of_getElem? ((same.attempt k p).mpr hk)]

/-! ## What is pending -/

theorem Does.pending (h : Does r e r' effects) (uncalled : e.language? = none) {k : Nat}
    (hk : r'.pending.get? name = some k) : r.pending.get? name = some k := by
  cases h with
  | idle => exact hk
  | present | joined | answered | scheduled => cases uncalled
  | cancelled | started | succeeded | failed => exact hk
  | woken | left => exact pending_of_pending_release hk

theorem pending_run {events : List Event} (uncalled : ∀ e ∈ events, e.language? = none) {k : Nat}
    (hk : (r.run events).1.pending.get? name = some k) : r.pending.get? name = some k := by
  induction events generalizing r with
  | nil => exact hk
  | cons e events ih =>
    rw [List.forall_mem_cons] at uncalled
    exact (step_does r e).pending uncalled.1 (ih uncalled.2 hk)

/-- A new call for a name that is not registered waits for what is pending then. -/
theorem attempt_of_pending_call {language : String} (named : Language.normalize language = name)
    (unregistered : r.grammars.get? name = none) {c : LoadCall}
    (hc : (r.call language).1.calls[r.calls.length]? = some c) {k : Nat}
    (hk : (r.call language).1.pending.get? name = some k) : c.attempt = some k := by
  cases hp : r.pending.get? name with
  | none =>
    rw [call_free named unregistered hp] at hc hk
    rw [pending_addCall, get?_pending_schedule, if_pos rfl] at hk
    cases hk
    simp only [calls_addCall, calls_schedule, List.getElem?_concat_length] at hc
    cases hc
    rfl
  | some j =>
    cases ho : r.outcome? j with
    | none =>
      rw [call_unfinished named unregistered hp ho] at hc hk
      simp only [calls_addCall, List.getElem?_concat_length] at hc
      cases hc
      rw [pending_addCall, hp] at hk
      exact hk
    | some o =>
      rw [call_finished named unregistered hp ho] at hk
      rw [pending_addCall] at hk
      have hj := pending_of_pending_release hk
      rw [hp] at hj
      cases hj
      exact absurd hk (pending_release_ne (by rw [ho]; rfl))

/-! ## Loading -/

structure Steady (answer : String → Except LoadFault Grammar) (r : Registry) : Prop where
  coherent : r.Coherent
  settled : r.Settled
  conforms : r.Conforms answer

namespace Steady

/-- What is registered is what the loader answers. -/
theorem answer_of_registered (h : Steady answer r) {g : Grammar}
    (hg : r.grammars.get? name = some g) : answer name = .ok g := by
  obtain ⟨k, hk⟩ := h.coherent.registered.mp hg
  exact (h.conforms k name _ hk).symm

/-- An answered call has the answer of the loader. -/
theorem status_eq (h : Steady answer r) {c : LoadCall} (hc : c ∈ r.calls)
    (answered : c.status.isAnswer = true) : c.status = statusOf (answer c.name) := by
  have fits := h.coherent.call c hc
  cases ha : c.attempt with
  | none =>
    obtain ⟨hs, g, hg⟩ := fits.present ha
    rw [hs, h.answer_of_registered hg]
    rfl
  | some k =>
    obtain ⟨o, ho, hs⟩ := fits.answer ha answered
    obtain ⟨p, hk⟩ := fits.attempt ha
    obtain ⟨other, hk'⟩ := outcome?_eq_some_iff.mp ho
    rw [hk] at hk'
    cases hk'
    rw [hs, h.conforms k c.name o hk]

/-- The name of an answered call has taken on the answer of the loader. -/
theorem get?_eq_toOption (h : Steady answer r) {c : LoadCall} (hc : c ∈ r.calls)
    (answered : c.status.isAnswer = true) : r.grammars.get? c.name = (answer c.name).toOption := by
  have status := h.status_eq hc answered
  cases ha : answer c.name with
  | ok g =>
    rw [ha] at status
    obtain ⟨g', hg⟩ := h.coherent.registered_of_returned hc status
    have ha' := h.answer_of_registered hg
    rw [ha] at ha'
    cases ha'
    exact hg
  | error fault =>
    show r.grammars.get? c.name = none
    rw [Option.eq_none_iff_forall_ne_some]
    intro g hg
    rw [h.answer_of_registered hg] at ha
    cases ha

end Steady

/-- At most one name has taken on the answer of the loader, and the others are as they were. -/
structure Gains (answer : String → Except LoadFault Grammar) (wanted : Option String)
    (r r' : Registry) : Prop where
  grammar : ∀ name, r'.grammars.get? name =
    if wanted = some name then (answer name).toOption else r.grammars.get? name
  held : ∀ name, r'.held? name =
    if wanted = some name ∧ r.grammars.get? name = none then none else r.held? name

theorem Gains.refl (answer : String → Except LoadFault Grammar) (r : Registry) :
    Gains answer none r r :=
  ⟨fun _ => rfl, fun _ => rfl⟩

/-- In which order names are gained does not matter. -/
theorem Gains.commute {a b : Option String} {ra rab rb rba : Registry} (ha : Gains answer a r ra)
    (hab : Gains answer b ra rab) (hb : Gains answer b r rb) (hba : Gains answer a rb rba)
    (name : String) :
    rba.grammars.get? name = rab.grammars.get? name ∧ rba.held? name = rab.held? name := by
  rw [hba.grammar, hab.grammar, hba.held, hab.held, ha.grammar, hb.grammar, ha.held, hb.held]
  by_cases hna : a = some name <;> by_cases hnb : b = some name <;> simp [hna, hnb]

/-- Nothing is held for a name after a call for it. What was held has ended the call. -/
theorem Coherent.held?_call (h : Coherent r) {language : String}
    (named : Language.normalize language = name) (unregistered : r.grammars.get? name = none)
    {c : LoadCall} (hc : (r.call language).1.calls[r.calls.length]? = some c) {s : CallStatus}
    (hs : ((r.call language).1.settle answer).1.calls[r.calls.length]? = some { c with status := s })
    (hname : c.name = name) (answered : s.isAnswer = true) :
    ((r.call language).1.settle answer).1.held? name = none := by
  have coherent := ((h.step (.call language)).settled_settle answer).1
  rw [held?, Option.bind_eq_none_iff]
  intro k hp
  have attempt := attempt_of_pending_call named unregistered hc
    (pending_run (fun _ he => uncalled_of_settleEvents he) hp)
  have fits := coherent.call _ (List.mem_of_getElem? hs)
  rw [← hname] at hp
  exact absurd hp (fits.released attempt answered)

/-- A call for a registered name leaves all that is pending as it is. -/
theorem Settled.held?_call (h : Settled r) {language : String}
    (named : Language.normalize language = name) {g : Grammar}
    (registered : r.grammars.get? name = some g) (other : String) :
    ((r.call language).1.settle answer).1.held? other = r.held? other := by
  have ended : Settled (r.addCall ⟨name, none, .returned⟩) := h.addCall rfl
  rw [call_registered named registered]
  dsimp only
  rw [settle_of_settled ended]
  rfl

/-- In a steady registry every call ends with the answer of the loader, which its name takes on. -/
theorem Steady.load (h : Steady answer r) {language : String}
    (named : Language.normalize language = name) :
    let r' := ((r.call language).1.settle answer).1
    Steady answer r' ∧ Gains answer (some name) r r' ∧
      ∃ k, r'.calls[r.calls.length]? = some ⟨name, k, statusOf (answer name)⟩ := by
  intro r'
  have called : (r.call language).1.Coherent := h.coherent.step (.call language)
  have conforms : (r.call language).1.Conforms answer :=
    h.conforms.does (step_does r (.call language)) (by rintro k o ⟨⟩)
  obtain ⟨coherent, settled⟩ := called.settled_settle answer
  have steady : Steady answer r' := ⟨coherent, settled, conforms.settle called⟩
  obtain ⟨c, hcalls, hname, hu⟩ := call_added r language
  have hc : (r.call language).1.calls[r.calls.length]? = some c := by
    rw [hcalls, List.getElem?_concat_length]
  obtain ⟨s, hs, ends⟩ := called.settle_answers answer hc hu
  rw [named] at hname
  have answered : s.isAnswer = true := by
    rcases ends with ⟨rfl, -⟩ | ⟨fault, rfl⟩ <;> rfl
  have hm := List.mem_of_getElem? hs
  have status : s = statusOf (answer c.name) := steady.status_eq hm answered
  have same : ∀ other, some name ≠ some other → SameFor other r r' := fun other hne =>
    h.settled.sameFor_call (by rw [named]; exact fun he => hne (by rw [he])) answer
  refine ⟨steady, ⟨fun other => ?_, fun other => ?_⟩, c.attempt, by rw [hs, status, hname]⟩
  · split
    · rename_i he
      cases he
      have registered := steady.get?_eq_toOption hm answered
      rwa [hname] at registered
    · rename_i hne
      exact (same other hne).grammar
  · split
    · rename_i he
      obtain ⟨he, unregistered⟩ := he
      cases he
      exact h.coherent.held?_call named unregistered hc hs hname answered
    · rename_i hne
      by_cases he : some name = some other
      · cases he
        obtain ⟨g, registered⟩ := Option.ne_none_iff_exists'.mp fun hn => hne ⟨rfl, hn⟩
        exact h.settled.held?_call named registered name
      · exact (same other he).held? h.coherent

end Registry
end CodeIndex
