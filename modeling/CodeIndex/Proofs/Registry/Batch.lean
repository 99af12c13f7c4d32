import CodeIndex.Proofs.Registry.Gathering

/-!
# CodeIndex.Proofs.Registry.Batch

What loading many languages together leads to, from a registry in which nothing is pending.

* `Batch`: all calls start, and then attempts and calls go on in any order until these calls are over. The
  loader answers by the name and by the number of tries before.
* `BatchResult`, `Batch.result`: which loader calls a batch makes, how its calls end, and what is registered
  after it. None of this depends on the order of events.
* `BatchResult.agree`: nor does it depend on the order and the number of the calls for one name.
* `batch_settle`: settling is one of the orders.
-/

namespace CodeIndex
namespace Registry

variable {r r' : Registry}

/-! ## After a batch -/

namespace Ended

variable {names news : List String} {answer : String → Except LoadFault Grammar}
  (h : Ended answer r names news r')

include h

/-- What is registered after a batch was registered before, or the loader has answered it. -/
theorem registered_iff (coherent : Coherent r) {name : String} {g : Grammar}
    (unregistered : r.grammars.get? name = none) :
    r'.grammars.get? name = some g ↔ name ∈ names ∧ answer name = .ok g := by
  rw [h.coherent.registered]
  constructor
  · rintro ⟨k, hk⟩
    rw [h.attempts, List.getElem?_append] at hk
    split at hk
    · rw [coherent.registered.mpr ⟨k, hk⟩] at unregistered
      cases unregistered
    · rw [List.getElem?_map, Option.map_eq_some_iff] at hk
      obtain ⟨name', hname, ha⟩ := hk
      simp only [Attempt.mk.injEq, Progress.finished.injEq] at ha
      obtain ⟨rfl, ho⟩ := ha
      exact ⟨((h.mem name').mp (List.mem_of_getElem? hname)).1, ho⟩
  · rintro ⟨hm, ho⟩
    obtain ⟨j, hj⟩ := List.mem_iff_getElem?.mp ((h.mem name).mpr ⟨hm, unregistered⟩)
    refine ⟨r.attempts.length + j, ?_⟩
    rw [h.attempts, List.getElem?_append_right (Nat.le_add_right _ _), Nat.add_sub_cancel_left,
      List.getElem?_map, hj, ← ho]
    rfl

/-- A call returns if its name was registered before, and else it has the answer of the loader. -/
theorem status {i : Nat} {name : String} (hi : names[i]? = some name) :
    r'.status? (r.calls.length + i) =
      some (if (r.grammars.get? name).isSome then .returned else statusOf (answer name)) := by
  obtain ⟨c, hc, rfl, hs, hattempt⟩ := h.call hi
  have hfits := h.coherent.call c (List.mem_of_getElem? hc)
  rw [status?, hc, Option.map_some]
  rcases hattempt with ⟨hn, g, hg⟩ | ⟨k, hk, hle⟩
  · rw [hg, (hfits.present hn).1]
    rfl
  · obtain ⟨outcome, ho, hst⟩ := hfits.answer hk hs
    obtain ⟨p, hp⟩ := hfits.attempt hk
    have hnew := hp
    rw [h.attempts, List.getElem?_append_right hle, List.getElem?_map, Option.map_eq_some_iff] at hnew
    obtain ⟨name, hname, ha⟩ := hnew
    simp only [Attempt.mk.injEq] at ha
    obtain ⟨hn, rfl⟩ := ha
    rw [outcome?_of_getElem? hp] at ho
    cases ho
    rw [← hn, hst, ((h.mem name).mp (List.mem_of_getElem? hname)).2]
    rfl

end Ended

/-! ## The whole batch -/

/-- Calls for some languages, and the events after them, until these calls are over. -/
structure Batch (loader : String → Nat → Except LoadFault Grammar) (r : Registry)
    (languages : List String) (later : List Event) : Prop where
  /-- Nobody else calls meanwhile. -/
  uncalled : ∀ e ∈ later, e.language? = none
  uncancelled : ∀ i, r.calls.length ≤ i → .cancel i ∉ later
  /-- What the loader answers depends on the name and on the number of tries before. -/
  answers : ∀ (k : Nat) (outcome : Except LoadFault Grammar), .finish k outcome ∈ later →
    ∀ a ∈ (r.run (languages.map .call)).1.attempts[k]?,
      outcome = loader a.name (tries ((r.run (languages.map .call)).1.attempts.take k) a.name)
  allOver : ∀ i < languages.length, ∃ s,
    (r.run (languages.map .call ++ later)).1.status? (r.calls.length + i) = some s ∧ s.isOver = true

/-- What the loader answers for a name in a batch. -/
def answerIn (loader : String → Nat → Except LoadFault Grammar) (r : Registry) (name : String) :
    Except LoadFault Grammar :=
  loader name (tries r.attempts name)

theorem Batch.ended {loader : String → Nat → Except LoadFault Grammar} {languages : List String}
    {later : List Event} (h : Batch loader r languages later) (coherent : Coherent r)
    (idle : ∀ name, r.pending.get? name = none) :
    ∃ news, news.Nodup ∧
      Ended (answerIn loader r) r (languages.map Language.normalize) news
        (r.run (languages.map .call ++ later)).1 ∧
      (loadsOf (r.run (languages.map .call ++ later)).2).Perm news := by
  obtain ⟨news, gathered, hloads⟩ := gathered_run coherent idle languages
  have done : Completes (answerIn loader r) r (languages.map Language.normalize)
      (r.run (languages.map .call)).1 later := by
    refine ⟨h.uncalled, h.uncancelled, fun {k outcome name p} hm hle hk => ?_, ?_⟩
    · obtain ⟨j, rfl⟩ := Nat.exists_eq_add_of_le hle
      obtain ⟨hj, -⟩ := gathered.getElem?_of_le hk hle
      rw [Nat.add_sub_cancel_left] at hj
      rw [h.answers _ outcome hm _ hk, gathered.tries_take hj]
      rfl
    · rw [List.length_map, ← run_append_fst]
      exact h.allOver
  rw [run_append]
  refine ⟨news, gathered.nodup, gathered.ended done coherent idle, ?_⟩
  rw [loadsOf_append, hloads, List.nil_append]
  exact gathered.loads_run done coherent idle

/-- Where nothing is pending, the tries of a name are the loader calls for it. -/
theorem tries_eq_begun (coherent : Coherent r) (idle : ∀ name, r.pending.get? name = none)
    (name : String) : tries r.attempts name = r.begun name := by
  apply List.countP_congr
  intro a ha
  obtain ⟨k, hk⟩ := List.mem_iff_getElem?.mp ha
  obtain ⟨outcome, hout⟩ := coherent.ended_of_idle idle hk
  rw [hout]
  simp [Progress.hasBegun]

/-- What a batch leads to. The loader is called once for each name that is asked for and not registered,
and for no other. A call returns just when its name is registered afterwards, and raises the fault of the
loader otherwise. What was registered stays, and to it come the names that the loader has answered. -/
structure BatchResult (loader : String → Nat → Except LoadFault Grammar) (r : Registry)
    (languages : List String) (after : Registry × List Effect) : Prop where
  loads_nodup : (loadsOf after.2).Nodup
  mem_loads : ∀ name, name ∈ loadsOf after.2 ↔
    name ∈ languages.map Language.normalize ∧ r.grammars.get? name = none
  returned : ∀ (i : Nat) (language : String), languages[i]? = some language →
    (after.1.status? (r.calls.length + i) = some .returned ↔
      ∃ g, after.1.grammars.get? (Language.normalize language) = some g)
  raised : ∀ (i : Nat) (language : String), languages[i]? = some language →
    after.1.grammars.get? (Language.normalize language) = none →
      ∃ fault, answerIn loader r (Language.normalize language) = .error fault ∧
        after.1.status? (r.calls.length + i) = some (.raised fault)
  grammar : ∀ name, after.1.grammars.get? name =
    match r.grammars.get? name with
    | some g => some g
    | none => if name ∈ languages.map Language.normalize then (answerIn loader r name).toOption else none
  idle : ∀ name, after.1.pending.get? name = none

section Result

variable {loader : String → Nat → Except LoadFault Grammar} {languages others : List String}
  {later later' : List Event}

theorem Ended.grammar {names news : List String} {answer : String → Except LoadFault Grammar}
    (h : Ended answer r names news r') (coherent : Coherent r) (name : String) :
    r'.grammars.get? name =
      match r.grammars.get? name with
      | some g => some g
      | none => if name ∈ names then (answer name).toOption else none := by
  cases hg : r.grammars.get? name with
  | some g => exact h.grows.grammar hg
  | none =>
    have iff : ∀ g, r'.grammars.get? name = some g ↔ name ∈ names ∧ answer name = .ok g :=
      fun g => h.registered_iff coherent hg
    by_cases hm : name ∈ names
    · dsimp only
      rw [if_pos hm]
      cases ho : answer name with
      | ok g => exact (iff g).mpr ⟨hm, ho⟩
      | error fault =>
        rw [Except.toOption, Option.eq_none_iff_forall_ne_some]
        intro g hg'
        rw [ho] at iff
        cases ((iff g).mp hg').2
    · dsimp only
      rw [if_neg hm, Option.eq_none_iff_forall_ne_some]
      intro g hg'
      exact hm ((iff g).mp hg').1

theorem Batch.result (h : Batch loader r languages later) (coherent : Coherent r)
    (idle : ∀ name, r.pending.get? name = none) :
    BatchResult loader r languages (r.run (languages.map .call ++ later)) := by
  obtain ⟨news, nodup, ended, loads⟩ := h.ended coherent idle
  have named : ∀ {i : Nat} {language : String}, languages[i]? = some language →
      (languages.map Language.normalize)[i]? = some (Language.normalize language) := by
    intro i language hi
    rw [List.getElem?_map, hi]
    rfl
  have grammar := ended.grammar coherent
  refine ⟨loads.nodup_iff.mpr nodup, fun name => ?_, fun i language hi => ?_,
    fun i language hi hn => ?_, grammar, ended.idle⟩
  · rw [loads.mem_iff]
    exact ended.mem name
  · rw [ended.status (named hi), grammar]
    have hm := List.mem_of_getElem? (named hi)
    cases r.grammars.get? (Language.normalize language) with
    | some g => simp
    | none =>
      cases answerIn loader r (Language.normalize language) with
      | ok g => simp [hm, statusOf, Except.toOption]
      | error fault => simp [hm, statusOf, Except.toOption]
  · rw [ended.status (named hi)]
    rw [grammar] at hn
    have hm := List.mem_of_getElem? (named hi)
    cases hg : r.grammars.get? (Language.normalize language) with
    | some g =>
      rw [hg] at hn
      cases hn
    | none =>
      cases ho : answerIn loader r (Language.normalize language) with
      | ok g => simp [hg, ho, hm, Except.toOption] at hn
      | error fault => exact ⟨fault, rfl, rfl⟩

/-- The order and the number of the calls for a name change neither the registry nor the loader calls. -/
theorem BatchResult.agree {after after' : Registry × List Effect}
    (h : BatchResult loader r languages after) (h' : BatchResult loader r others after')
    (same : ∀ name, name ∈ languages.map Language.normalize ↔ name ∈ others.map Language.normalize) :
    (∀ name, after.1.grammars.get? name = after'.1.grammars.get? name) ∧
      (loadsOf after.2).Perm (loadsOf after'.2) := by
  refine ⟨fun name => ?_, ?_⟩
  · rw [h.grammar, h'.grammar]
    simp only [same]
  · rw [List.perm_ext_iff_of_nodup h.loads_nodup h'.loads_nodup]
    intro name
    rw [h.mem_loads, h'.mem_loads, same]

end Result

/-! ## Settling is one order -/

theorem length_calls_run (r : Registry) (languages : List String) :
    (r.run (languages.map .call)).1.calls.length = r.calls.length + languages.length := by
  have hnames := congrArg List.length (names_run r (languages.map .call))
  have hasked : (languages.map Event.call).filterMap Event.language? = languages := by
    rw [List.filterMap_map]
    exact List.filterMap_some
  rw [hasked] at hnames
  simpa using hnames

theorem uncalled_settleEvents (r : Registry) (answer : String → Except LoadFault Grammar) :
    ∀ e ∈ r.settleEvents answer, e.language? = none := by
  intro e he
  simp only [settleEvents, List.mem_append, List.mem_map, List.mem_mapIdx] at he
  rcases he with (⟨k, -, rfl⟩ | ⟨k, hk, rfl⟩) | ⟨k, -, rfl⟩ <;> rfl

theorem Coherent.settle_over (h : Coherent r) (answer : String → Except LoadFault Grammar) {i : Nat}
    (hi : i < r.calls.length) : ∃ s, (r.settle answer).1.status? i = some s ∧ s.isOver = true := by
  obtain ⟨-, settled⟩ := h.settled_settle answer
  have hlength : (r.settle answer).1.calls.length = r.calls.length :=
    (lengths_run (uncalled_settleEvents r answer)).2
  obtain ⟨c, hc, hs⟩ := settled.call_of_lt (by rw [hlength]; exact hi)
  exact ⟨c.status, by rw [status?, hc, Option.map_some], hs⟩

/-- All attempts and calls may end in the order of settling. -/
theorem batch_settle (coherent : Coherent r) (languages : List String)
    (answer : String → Except LoadFault Grammar) :
    Batch (fun name _ => answer name) r languages
      ((r.run (languages.map .call)).1.settleEvents answer) where
  uncalled := uncalled_settleEvents _ answer
  uncancelled i _ := cancel_not_mem_settleEvents answer _ i
  answers := by
    intro k outcome hm a ha
    simp only [settleEvents, List.mem_append, List.mem_map, List.mem_mapIdx] at hm
    rcases hm with (⟨j, -, hj⟩ | ⟨j, hlt, hj⟩) | ⟨j, -, hj⟩
    · cases hj
    · cases hj
      rw [Option.mem_def, List.getElem?_eq_getElem hlt] at ha
      cases ha
      rfl
    · cases hj
  allOver := by
    intro i hi
    rw [run_append_fst]
    refine (coherent.run (languages.map .call)).settle_over answer ?_
    rw [length_calls_run]
    omega

end Registry
end CodeIndex
