import CodeIndex.Proofs.Registry.Coherence

/-!
# CodeIndex.Proofs.Registry.LoadOnce

Grammars are loaded once each, whatever the order of events.

* `names_run`: the calls of a run have the normal forms of the languages that were asked for, in order.
* `Coherent.unfinished_unique`: no two attempts for one name are under way together.
* `Coherent.load_not_mem_run`: the loader is not called for a name that is registered.
* `Coherent.registered_of_returned`: a call that has returned has left its name registered.
* `loads_once`: all of this from the empty registry on.
-/

namespace CodeIndex
namespace Registry

variable {r r' : Registry} {e : Event} {effects : List Effect}

/-! ## Names of calls and of loader calls -/

theorem map_set_of_getElem? {α β : Type} {f : α → β} {l : List α} {i : Nat} {a b : α}
    (hi : l[i]? = some a) (h : f b = f a) : (l.set i b).map f = l.map f := by
  apply List.ext_getElem?
  intro j
  rw [List.getElem?_map, List.getElem?_map, List.getElem?_set]
  split
  · rename_i he
    subst he
    rw [hi, if_pos (List.getElem?_eq_some_iff.mp hi).1]
    simp [h]
  · rfl

theorem Does.names (h : Does r e r' effects) :
    r'.calls.map LoadCall.name =
      r.calls.map LoadCall.name ++ e.language?.toList.map Language.normalize := by
  cases h with
  | idle uncalled => simp [uncalled]
  | present named | joined named => simp [Event.language?, named]
  | answered named => simp [Event.language?, named]
  | scheduled named => simp [Event.language?, named]
  | cancelled found | woken found | left found =>
    simpa [Event.language?] using map_set_of_getElem? found rfl
  | started | succeeded | failed => simp [Event.language?]

theorem names_run (r : Registry) (events : List Event) :
    (r.run events).1.calls.map LoadCall.name =
      r.calls.map LoadCall.name ++ (events.filterMap Event.language?).map Language.normalize := by
  induction events generalizing r with
  | nil => simp
  | cons e events ih =>
    rw [run_cons, ih, (step_does r e).names, List.filterMap_cons]
    cases e.language? <;> simp

theorem names_run_empty (events : List Event) :
    (({} : Registry).run events).1.calls.map LoadCall.name =
      (events.filterMap Event.language?).map Language.normalize := by
  simpa using names_run {} events

theorem Does.load_mem {name : String} (h : Does r e r' effects) (hm : .load name ∈ effects) :
    ∃ k : Nat, e = .start k ∧ r.attempts[k]? = some ⟨name, .scheduled⟩ := by
  cases h with
  | @started k name' found =>
    have hn : name = name' := by simpa using hm
    subst hn
    exact ⟨k, rfl, found⟩
  | _ => simp at hm

namespace Coherent

/-- The names of attempts are those of calls. -/
theorem name_mem (h : Coherent r) {k : Nat} {a : Attempt} (hk : r.attempts[k]? = some a) :
    a.name ∈ r.calls.map LoadCall.name := by
  obtain ⟨c, hc, ha⟩ := h.caller hk
  obtain ⟨p, hp⟩ := (h.call c hc).attempt ha
  rw [hk] at hp
  cases hp
  exact List.mem_map_of_mem hc

theorem load_name_mem (h : Coherent r) {name : String} {events : List Event}
    (hm : .load name ∈ (r.run events).2) : name ∈ (r.run events).1.calls.map LoadCall.name := by
  induction events generalizing r with
  | nil => simp at hm
  | cons e events ih =>
    rw [run_cons, List.mem_append] at hm
    rcases hm with hm | hm
    · obtain ⟨k, -, hk⟩ := (step_does r e).load_mem hm
      rw [names_run]
      exact List.mem_append_left _ (h.name_mem hk)
    · exact ih (h.step e) hm

/-! ## One attempt at a time -/

theorem unfinished_unique (h : Coherent r) {k j : Nat} {name : String} {p q : Progress}
    (hk : r.attempts[k]? = some ⟨name, p⟩) (hp : p.outcome? = none)
    (hj : r.attempts[j]? = some ⟨name, q⟩) (hq : q.outcome? = none) : k = j := by
  have hk' := (h.unfinished hk hp).1
  rw [(h.unfinished hj hq).1] at hk'
  exact (Option.some.inj hk').symm

theorem load_not_mem_step (h : Coherent r) {name : String} {g : Grammar}
    (hg : r.grammars.get? name = some g) (e : Event) : .load name ∉ (r.step e).2 := by
  intro hm
  obtain ⟨k, -, hk⟩ := (step_does r e).load_mem hm
  rw [(h.unfinished hk rfl).2] at hg
  cases hg

theorem load_not_mem_run (h : Coherent r) {name : String} {g : Grammar}
    (hg : r.grammars.get? name = some g) (events : List Event) :
    .load name ∉ (r.run events).2 := by
  induction events generalizing r with
  | nil => simp
  | cons e events ih =>
    rw [run_cons, List.mem_append, not_or]
    exact ⟨h.load_not_mem_step hg e, ih (h.step e) (((step_does r e).grows h).grammar hg)⟩

/-! ## What is registered -/

theorem registered_of_returned (h : Coherent r) {c : LoadCall} (hc : c ∈ r.calls)
    (hs : c.status = .returned) : ∃ g, r.grammars.get? c.name = some g := by
  have hf := h.call c hc
  cases ha : c.attempt with
  | none => exact (hf.present ha).2
  | some k =>
    obtain ⟨p, hp⟩ := hf.attempt ha
    obtain ⟨outcome, ho, hst⟩ := hf.answer ha (by rw [hs]; rfl)
    rw [outcome?_of_getElem? hp] at ho
    cases outcome with
    | error fault =>
      rw [hs] at hst
      cases hst
    | ok g =>
      cases p with
      | finished o =>
        cases ho
        exact ⟨g, h.registered.mpr ⟨k, hp⟩⟩
      | scheduled => cases ho
      | running => cases ho

end Coherent

theorem grammars_finish_error (r : Registry) (k : Nat) (fault : LoadFault) :
    (r.step (.finish k (.error fault))).1.grammars = r.grammars := by
  have h := step_does r (.finish k (.error fault))
  generalize hr' : (r.step (.finish k (.error fault))).1 = r' at h ⊢
  generalize (r.step (.finish k (.error fault))).2 = effects at h
  cases h <;> rfl

/-- The success of an attempt that is running registers the grammar for its name. -/
theorem registered_finish_ok {k : Nat} {name : String} (hk : r.attempts[k]? = some ⟨name, .running⟩)
    (g : Grammar) :
    (r.step (.finish k (.ok g))).1.grammars.get? name = some g ∧
      (r.step (.finish k (.ok g))).1.attempts[k]? = some ⟨name, .finished (.ok g)⟩ := by
  have bound : k < r.attempts.length := (List.getElem?_eq_some_iff.mp hk).1
  have hstep : (r.step (.finish k (.ok g))).1 =
      { r.setProgress k name (.finished (.ok g)) with grammars := r.grammars.insert name g } := by
    rw [step, finish, hk]
    rfl
  rw [hstep]
  exact ⟨by rw [Table.get?_insert, if_pos rfl], by simp [setProgress, bound]⟩

/-- After any events from the empty registry on: the loader is called with normal forms of languages
that were asked for, and for one name at a time. Where it succeeds, the name is registered with that grammar
at once; it stays so, and the loader is not called for it again. Nothing else is registered, and a failure
registers nothing. An event about one name leaves the others as they are. A call that has returned has
left the normal form of its language registered. -/
theorem loads_once (events : List Event) :
    let r := (({} : Registry).run events).1
    (∀ name, .load name ∈ (({} : Registry).run events).2 →
      ∃ language, .call language ∈ events ∧ Language.normalize language = name) ∧
    (∀ (name : String) (k j : Nat), r.attempts[k]? = some ⟨name, .running⟩ →
      r.attempts[j]? = some ⟨name, .running⟩ → k = j) ∧
    (∀ (name : String) (g : Grammar) (k : Nat), r.attempts[k]? = some ⟨name, .running⟩ →
      (r.step (.finish k (.ok g))).1.grammars.get? name = some g ∧
        (r.step (.finish k (.ok g))).1.attempts[k]? = some ⟨name, .finished (.ok g)⟩) ∧
    (∀ (name : String) (g : Grammar) (k : Nat),
      r.attempts[k]? = some ⟨name, .finished (.ok g)⟩ → ∀ later : List Event,
        (r.run later).1.grammars.get? name = some g ∧ .load name ∉ (r.run later).2) ∧
    (∀ (name : String) (g : Grammar), r.grammars.get? name = some g →
      ∃ k : Nat, r.attempts[k]? = some ⟨name, .finished (.ok g)⟩) ∧
    (∀ (k : Nat) (fault : LoadFault),
      (r.step (.finish k (.error fault))).1.grammars = r.grammars) ∧
    (∀ (e : Event) (other : String), e.name? r ≠ some other →
      SameFor other r (r.step e).1 ∧ .load other ∉ (r.step e).2) ∧
    (∀ (i : Nat) (language : String), (events.filterMap Event.language?)[i]? = some language →
      r.status? i = some .returned →
        ∃ g, r.grammars.get? (Language.normalize language) = some g) := by
  intro r
  have h : Coherent r := coherent_run events
  refine ⟨?_, ?_, fun name g k hk => registered_finish_ok hk g, ?_, ?_, ?_, ?_, ?_⟩
  · intro name hm
    have hn := coherent_empty.load_name_mem hm
    rw [names_run_empty, List.mem_map] at hn
    obtain ⟨language, hl, hn⟩ := hn
    obtain ⟨e, he, hel⟩ := List.mem_filterMap.mp hl
    rw [Event.eq_call_of_language? hel] at he
    exact ⟨language, he, hn⟩
  · intro name k j hk hj
    exact h.unfinished_unique hk rfl hj rfl
  · intro name g k hk later
    have hg := h.registered.mpr ⟨k, hk⟩
    exact ⟨(h.grows_run later).grammar hg, h.load_not_mem_run hg later⟩
  · intro name g hg
    exact h.registered.mp hg
  · exact grammars_finish_error r
  · intro e other ho
    refine ⟨step_sameFor r ho, fun hm => ?_⟩
    obtain ⟨k, rfl, hk⟩ := (step_does r e).load_mem hm
    exact ho (by simp [Event.name?, hk])
  · intro i language hi hs
    obtain ⟨c, hc, hst⟩ := Option.map_eq_some_iff.mp hs
    have hn : c.name = Language.normalize language := by
      have hnames := congrArg (·[i]?) (names_run_empty events)
      simpa [hc, hi, r] using hnames
    rw [← hn]
    exact h.registered_of_returned (List.mem_of_getElem? hc) hst

end Registry
end CodeIndex
