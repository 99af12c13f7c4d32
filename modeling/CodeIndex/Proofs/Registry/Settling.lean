import CodeIndex.Proofs.Registry.Progress
import Mathlib.Data.List.Induction

/-!
# CodeIndex.Proofs.Registry.Settling

Letting all attempts and calls end.

* `Settled`: all attempts have ended and all calls are over.
* `run_each`: what each event of a list brings about holds after all of them, if no later event undoes
  it. The three stages of settling are instances: attempts start, attempts finish, calls wake up.
* `settled_settle`: settling leads to a settled registry, and in one it does nothing.
* `settle_scheduled`: settling after a call that made an attempt.
* `Serves`: the ways in which a call ends that finds all attempts ended and none of them pending.
* `Loads`: the ways in which a call in a settled registry ends.
-/

namespace CodeIndex
namespace Registry

structure Settled (r : Registry) : Prop where
  attempt : ∀ k : Nat, k < r.attempts.length → (r.outcome? k).isSome = true
  call : ∀ (i : Nat) (c : LoadCall), r.calls[i]? = some c → c.status.isOver = true

theorem settled_empty : Settled {} where
  attempt k hk := by cases hk
  call i c hi := by cases hi

variable {r r' : Registry} {e : Event} {effects : List Effect}

/-! ## Events that do nothing -/

theorem step_start_ended {k : Nat} (h : (r.outcome? k).isSome = true) :
    r.step (.start k) = (r, []) := by
  obtain ⟨o, ho⟩ := Option.isSome_iff_exists.mp h
  obtain ⟨name, hk⟩ := outcome?_eq_some_iff.mp ho
  simp [step, start, hk]

theorem step_finish_ended {k : Nat} (h : (r.outcome? k).isSome = true)
    (o : Except LoadFault Grammar) : r.step (.finish k o) = (r, []) := by
  obtain ⟨o', ho⟩ := Option.isSome_iff_exists.mp h
  obtain ⟨name, hk⟩ := outcome?_eq_some_iff.mp ho
  simp [step, finish, hk]

theorem step_wake_over {i : Nat} {c : LoadCall} (hi : r.calls[i]? = some c)
    (hs : c.status.isOver = true) : r.step (.wake i) = (r, []) := by
  show (r.wake i, []) = (r, [])
  rw [wake_over hi hs]

theorem run_starts_ended {ks : List Nat} (h : ∀ k ∈ ks, (r.outcome? k).isSome = true) :
    r.run (ks.map .start) = (r, []) := by
  apply run_of_idle
  intro e he
  obtain ⟨k, hk, rfl⟩ := List.mem_map.mp he
  exact step_start_ended (h k hk)

theorem run_finishes_ended {attempts : List Attempt} {o : Attempt → Except LoadFault Grammar}
    (h : ∀ k < attempts.length, (r.outcome? k).isSome = true) :
    r.run (attempts.mapIdx fun k a => .finish k (o a)) = (r, []) := by
  apply run_of_idle
  intro e he
  obtain ⟨k, hk, rfl⟩ := List.mem_mapIdx.mp he
  exact step_finish_ended (h k hk) _

theorem run_wakes_over {is : List Nat}
    (h : ∀ i ∈ is, ∃ c, r.calls[i]? = some c ∧ c.status.isOver = true) :
    r.run (is.map .wake) = (r, []) := by
  apply run_of_idle
  intro e he
  obtain ⟨i, hi, rfl⟩ := List.mem_map.mp he
  obtain ⟨c, hc, hs⟩ := h i hi
  exact step_wake_over hc hs

/-- What calls that wake up leave as it is. -/
structure Leaves (woken : List Nat) (r r' : Registry) : Prop where
  grammars : r'.grammars = r.grammars
  attempts : r'.attempts = r.attempts
  call : ∀ {i : Nat} {c : LoadCall}, r.calls[i]? = some c → i ∉ woken ∨ c.status.isOver = true →
    r'.calls[i]? = some c

theorem Leaves.outcome? {woken : List Nat} (h : Leaves woken r r') (k : Nat) :
    r'.outcome? k = r.outcome? k := by
  unfold Registry.outcome?
  rw [h.attempts]

/-- A call that ends changes no other one. -/
theorem setStatus_leaves {j k : Nat} {c : LoadCall} {name : String} (found : r.calls[j]? = some c)
    (waits : c.status.isOver = false) (s : CallStatus) :
    Leaves [j] r ((r.release name k).setStatus j c s) where
  grammars := grammars_release r name k
  attempts := attempts_release r name k
  call := by
    intro i c' hi hc
    have hne : j ≠ i := by
      rintro rfl
      rw [found] at hi
      cases hi
      rw [waits] at hc
      exact hc.elim (fun hn => hn List.mem_cons_self) nofun
    rw [← calls_release r name k] at found hi
    rw [getElem?_calls_set hi found, if_neg hne]

theorem wake_leaves (r : Registry) (j : Nat) : Leaves [j] r (r.wake j) := by
  have h : Does r (.wake j) (r.wake j) [] := step_does r (.wake j)
  generalize r.wake j = r' at h ⊢
  generalize ([] : List Effect) = effects at h
  cases h with
  | idle => exact ⟨rfl, rfl, fun hi _ => hi⟩
  | woken found serves waits => exact setStatus_leaves found (by rw [waits]; rfl) _
  | left found serves leaves => exact setStatus_leaves found (by rw [leaves]; rfl) _

theorem run_wakes (r : Registry) (woken : List Nat) :
    (r.run (woken.map .wake)).2 = [] ∧ Leaves woken r (r.run (woken.map .wake)).1 := by
  induction woken generalizing r with
  | nil => exact ⟨rfl, rfl, rfl, fun hi _ => hi⟩
  | cons j woken ih =>
    have first := wake_leaves r j
    obtain ⟨heffects, rest⟩ := ih (r.wake j)
    refine ⟨heffects, rest.grammars.trans first.grammars, rest.attempts.trans first.attempts, ?_⟩
    intro i c hi hc
    rw [List.mem_cons, not_or] at hc
    refine rest.call (first.call hi ?_) (hc.imp_left And.right)
    exact hc.imp_left fun hn hm => hn.1 (List.mem_singleton.mp hm)

theorem Settled.call_of_lt (h : Settled r) {i : Nat} (hi : i < r.calls.length) :
    ∃ c, r.calls[i]? = some c ∧ c.status.isOver = true :=
  ⟨_, List.getElem?_eq_getElem hi, h.call i _ (List.getElem?_eq_getElem hi)⟩

theorem settle_of_settled (h : Settled r) (loader : String → Except LoadFault Grammar) :
    r.settle loader = (r, []) := by
  unfold settle settleEvents
  rw [run_append, run_append, run_starts_ended fun k hk => h.attempt k (List.mem_range.mp hk),
    run_finishes_ended h.attempt,
    run_wakes_over fun i hi => h.call_of_lt (List.mem_range.mp hi)]
  rfl

/-! ## The stages of settling -/

theorem run_each {ι : Type} {P : Registry → Prop} {Q : ι → Registry → Prop} {f : ι → Event}
    (inv : ∀ r i, P r → P (r.step (f i)).1) (make : ∀ r i, P r → Q i (r.step (f i)).1)
    (keep : ∀ r i j, P r → Q i r → Q i (r.step (f j)).1) (indices : List ι) (h : P r) :
    P (r.run (indices.map f)).1 ∧ ∀ i ∈ indices, Q i (r.run (indices.map f)).1 := by
  induction indices using List.reverseRecOn with
  | nil => exact ⟨h, by simp⟩
  | append_singleton indices j ih =>
    obtain ⟨hp, hq⟩ := ih
    rw [List.map_append, run_append_fst]
    refine ⟨inv _ j hp, fun i hi => ?_⟩
    rcases List.mem_append.mp hi with hi | hi
    · exact keep _ i j hp (hq i hi)
    · rw [List.mem_singleton.mp hi]
      exact make _ j hp

theorem Does.lengths (h : Does r e r' effects) (uncalled : e.language? = none) :
    r'.attempts.length = r.attempts.length ∧ r'.calls.length = r.calls.length := by
  cases h with
  | idle => exact ⟨rfl, rfl⟩
  | present | joined | answered | scheduled => cases uncalled
  | cancelled | woken | left | started | succeeded | failed => simp

/-- Coherent, with so many attempts and so many calls. -/
structure Sized (n m : Nat) (r : Registry) : Prop where
  coherent : Coherent r
  attempts : r.attempts.length = n
  calls : r.calls.length = m

theorem Sized.step {n m : Nat} (h : Sized n m r) (uncalled : e.language? = none) :
    Sized n m (r.step e).1 := by
  obtain ⟨ha, hc⟩ := (step_does r e).lengths uncalled
  exact ⟨h.coherent.step e, ha.trans h.attempts, hc.trans h.calls⟩

theorem hasBegun_step {k : Nat} (h : r.hasBegun k = true) (e : Event) :
    (r.step e).1.hasBegun k = true := by
  have hb := (step_does r e).hasBegun k
  rw [h] at hb
  cases hn : (r.step e).1.hasBegun k with
  | true => rfl
  | false =>
    rw [hn] at hb
    simp at hb

theorem Coherent.ended_step (h : Coherent r) {k : Nat} (hk : (r.outcome? k).isSome = true)
    (e : Event) : ((r.step e).1.outcome? k).isSome = true := by
  obtain ⟨o, ho⟩ := Option.isSome_iff_exists.mp hk
  rw [((step_does r e).grows h).outcome ho]
  rfl

theorem begun_starts {n m : Nat} (h : Sized n m r) :
    Sized n m (r.run ((List.range n).map .start)).1 ∧
      ∀ k < n, (r.run ((List.range n).map .start)).1.hasBegun k = true := by
  have make : ∀ (r : Registry) (k : Nat), Sized n m r → k < n →
      (r.step (.start k)).1.hasBegun k = true := by
    intro r k h hlt
    rw [← h.attempts] at hlt
    obtain ⟨p, hp, begun, -⟩ := step_start (List.getElem?_eq_getElem hlt)
    rw [hasBegun_of_getElem? hp]
    exact begun
  have stage := run_each (P := Sized n m) (Q := fun k r => k < n → r.hasBegun k = true) (f := .start)
    (fun r k h => h.step rfl) make (fun r k j _ hk hlt => hasBegun_step (hk hlt) _) (List.range n) h
  exact ⟨stage.1, fun k hk => stage.2 k (List.mem_range.mpr hk) hk⟩

theorem ended_finishes {n m : Nat} (h : Sized n m r) (begun : ∀ k < n, r.hasBegun k = true)
    (attempts : List Attempt) (o : Attempt → Except LoadFault Grammar) :
    let r' := (r.run (attempts.mapIdx fun k a => .finish k (o a))).1
    Sized n m r' ∧ ∀ k < attempts.length, k < n → (r'.outcome? k).isSome = true := by
  have make : ∀ (r : Registry) (p : Attempt × Nat), (Sized n m r ∧ ∀ k < n, r.hasBegun k = true) →
      p.2 < n → ((r.step (.finish p.2 (o p.1))).1.outcome? p.2).isSome = true := by
    intro r p h hlt
    have hb := h.2 p.2 hlt
    rw [← h.1.attempts] at hlt
    rw [hasBegun_of_getElem? (List.getElem?_eq_getElem hlt)] at hb
    rw [step_finish _ (List.getElem?_eq_getElem hlt) hb]
    rfl
  have keep : ∀ (r : Registry) (p q : Attempt × Nat), (Sized n m r ∧ ∀ k < n, r.hasBegun k = true) →
      (p.2 < n → (r.outcome? p.2).isSome = true) → p.2 < n →
        ((r.step (.finish q.2 (o q.1))).1.outcome? p.2).isSome = true := by
    intro r p q h hp hlt
    exact h.1.coherent.ended_step (hp hlt) _
  rw [List.mapIdx_eq_zipIdx_map]
  have stage := run_each (f := fun p : Attempt × Nat => .finish p.2 (o p.1))
    (fun r p h => ⟨h.1.step rfl, fun k hk => hasBegun_step (h.2 k hk) _⟩) make keep
    attempts.zipIdx ⟨h, begun⟩
  refine ⟨stage.1.1, fun k hk hlt => stage.2 (attempts[k], k) ?_ hlt⟩
  exact List.mem_zipIdx_iff_getElem?.mpr (List.getElem?_eq_getElem hk)

/-- A call whose attempt has ended is over when it has woken up. -/
theorem Coherent.over_of_wake (h : Coherent r) {i : Nat} {c : LoadCall} (hi : r.calls[i]? = some c)
    (ended : ∀ k < r.attempts.length, (r.outcome? k).isSome = true) :
    ∃ c', (r.step (.wake i)).1.calls[i]? = some c' ∧ c'.status.isOver = true := by
  have hc := h.call c (List.mem_of_getElem? hi)
  by_cases hs : c.status.isOver = true
  · rw [step_wake_over hi hs]
    exact ⟨c, hi, hs⟩
  cases hk : c.attempt with
  | none =>
    rw [(hc.present hk).1] at hs
    exact absurd rfl hs
  | some k =>
    obtain ⟨p, hp⟩ := hc.attempt hk
    obtain ⟨o, ho⟩ := Option.isSome_iff_exists.mp
      (ended k (List.getElem?_eq_some_iff.mp hp).1)
    have hset : ∀ s : CallStatus, ((r.release c.name k).setStatus i c s).calls[i]? =
        some { c with status := s } := by
      intro s
      rw [getElem?_calls_set (by rwa [calls_release]) (by rwa [calls_release]), if_pos rfl]
    show ∃ c', (r.wake i).calls[i]? = some c' ∧ _
    cases hst : c.status with
    | waiting =>
      rw [wake_finished hi hk hst ho]
      exact ⟨_, hset _, CallStatus.isOver_of_isAnswer (isAnswer_statusOf o)⟩
    | cancelling =>
      rw [wake_cancelling hi hk hst]
      exact ⟨_, hset _, rfl⟩
    | returned | raised | cancelled => exact absurd (by rw [hst]; rfl) hs

theorem over_wakes {n m : Nat} (h : Sized n m r)
    (ended : ∀ k < n, (r.outcome? k).isSome = true) :
    let r' := (r.run ((List.range m).map .wake)).1
    (Sized n m r' ∧ ∀ k < n, (r'.outcome? k).isSome = true) ∧
      ∀ i < m, ∃ c, r'.calls[i]? = some c ∧ c.status.isOver = true := by
  have make : ∀ (r : Registry) (i : Nat),
      (Sized n m r ∧ ∀ k < n, (r.outcome? k).isSome = true) → i < m →
        ∃ c, (r.step (.wake i)).1.calls[i]? = some c ∧ c.status.isOver = true := by
    intro r i h hlt
    rw [← h.1.calls] at hlt
    exact h.1.coherent.over_of_wake (List.getElem?_eq_getElem hlt) (by rw [h.1.attempts]; exact h.2)
  have keep : ∀ (r : Registry) (i j : Nat),
      (Sized n m r ∧ ∀ k < n, (r.outcome? k).isSome = true) →
      (i < m → ∃ c, r.calls[i]? = some c ∧ c.status.isOver = true) → i < m →
        ∃ c, (r.step (.wake j)).1.calls[i]? = some c ∧ c.status.isOver = true := by
    intro r i j h hi hlt
    obtain ⟨c, hc, hs⟩ := hi hlt
    obtain ⟨s, hc', next⟩ := (step_does r (.wake j)).call hc
    exact ⟨_, hc', by rw [next.closed hs]; exact hs⟩
  have stage := run_each (f := .wake)
    (fun r i h => ⟨h.1.step rfl, fun k hk => h.1.coherent.ended_step (h.2 k hk) _⟩) make keep
    (List.range m) ⟨h, ended⟩
  exact ⟨stage.1, fun i hi => stage.2 i (List.mem_range.mpr hi) hi⟩

/-- Settling ends all attempts and calls. -/
theorem Coherent.settled_settle (h : Coherent r) (loader : String → Except LoadFault Grammar) :
    Coherent (r.settle loader).1 ∧ Settled (r.settle loader).1 := by
  have h₀ : Sized r.attempts.length r.calls.length r := ⟨h, rfl, rfl⟩
  obtain ⟨h₁, begun⟩ := begun_starts h₀
  obtain ⟨h₂, ended⟩ := ended_finishes h₁ begun r.attempts
    fun a => loader a.name
  obtain ⟨⟨h₃, ended₃⟩, closed⟩ := over_wakes h₂ fun k hk => ended k hk hk
  unfold settle settleEvents
  rw [run_append_fst, run_append_fst]
  refine ⟨h₃.coherent, fun k hk => ended₃ k ?_, fun i c hc => ?_⟩
  · rwa [h₃.attempts] at hk
  · have hlt := (List.getElem?_eq_some_iff.mp hc).1
    rw [h₃.calls] at hlt
    obtain ⟨c', hc', hs⟩ := closed i hlt
    rw [hc] at hc'
    cases hc'
    exact hs

/-! ## One call in a settled registry -/

/-- What is logged when an attempt has ended. -/
def endNotice (name : String) : Except LoadFault Grammar → Notice
  | .ok _ => .loaded name
  | .error fault => .loadFailed name fault

/-- The grammars after an attempt. -/
def grammarsAfter (r : Registry) (name : String) : Except LoadFault Grammar → Table Grammar
  | .ok g => r.grammars.insert name g
  | .error _ => r.grammars

theorem step_finish_running {k : Nat} {name : String} (hk : r.attempts[k]? = some ⟨name, .running⟩)
    (o : Except LoadFault Grammar) :
    (r.step (.finish k o)).2 = [.log (endNotice name o)] ∧
      (r.step (.finish k o)).1.grammars = r.grammarsAfter name o ∧
      (r.step (.finish k o)).1.attempts = r.attempts.set k ⟨name, .finished o⟩ := by
  show (r.finish k o).2 = _ ∧ (r.finish k o).1.grammars = _ ∧ (r.finish k o).1.attempts = _
  rw [finish_running hk]
  cases o <;> exact ⟨rfl, rfl, rfl⟩

/-- A registry in which all attempts have ended, with one more attempt and one more call that waits for
it. -/
structure Fresh (name : String) (n m : Nat) (p : Progress) (r : Registry) : Prop where
  attempts : r.attempts.length = n + 1
  calls : r.calls.length = m + 1
  ended : ∀ k < n, (r.outcome? k).isSome = true
  attempt : r.attempts[n]? = some ⟨name, p⟩
  call : r.calls[m]? = some ⟨name, some n, .waiting⟩

section Fresh

variable {name : String} {n m : Nat} {p : Progress}

theorem fresh_of_ended (ended : ∀ k < r.attempts.length, (r.outcome? k).isSome = true)
    (name : String) :
    Fresh name r.attempts.length r.calls.length .scheduled
      ((r.schedule name).addCall ⟨name, some r.attempts.length, .waiting⟩) where
  attempts := by simp
  calls := by simp
  ended k hk := by
    rw [outcome?_addCall, outcome?_schedule]
    exact ended k hk
  attempt := by simp
  call := by simp

theorem Fresh.setProgress {q : Progress} (h : Fresh name n m p r)
    (attempts : r'.attempts = r.attempts.set n ⟨name, q⟩) (calls : r'.calls = r.calls) :
    Fresh name n m q r' where
  attempts := by rw [attempts, List.length_set, h.attempts]
  calls := by rw [calls, h.calls]
  ended k hk := by
    have hne : n ≠ k := by omega
    have he := h.ended k hk
    unfold outcome? at he ⊢
    rwa [attempts, List.getElem?_set, if_neg hne]
  attempt := by
    have hlt : n < r.attempts.length := by rw [h.attempts]; omega
    rw [attempts, List.getElem?_set, if_pos rfl, if_pos hlt]
  call := by rw [calls, h.call]

theorem Fresh.starts (h : Fresh name n m .scheduled r) :
    let out := r.run ((List.range (n + 1)).map .start)
    out.2 = [.load name] ∧ out.1.grammars = r.grammars ∧ Fresh name n m .running out.1 := by
  have hs : r.step (.start n) = (r.setProgress n name .running, [.load name]) :=
    start_scheduled h.attempt
  rw [List.range_succ, List.map_append, run_append,
    run_starts_ended fun k hk => h.ended k (List.mem_range.mp hk)]
  simp only [List.map_cons, List.map_nil, run_cons, hs]
  exact ⟨rfl, rfl, h.setProgress rfl rfl⟩

theorem Fresh.finishes (h : Fresh name n m .running r) {attempts : List Attempt}
    (hn : attempts.length = n) (o : Attempt → Except LoadFault Grammar) :
    let out := r.run ((attempts ++ [Attempt.mk name p]).mapIdx fun k a => .finish k (o a))
    out.2 = [.log (endNotice name (o ⟨name, p⟩))] ∧
      out.1.grammars = r.grammarsAfter name (o ⟨name, p⟩) ∧
      Fresh name n m (.finished (o ⟨name, p⟩)) out.1 := by
  subst hn
  obtain ⟨heffects, hgrammars, hattempts⟩ := step_finish_running h.attempt (o ⟨name, p⟩)
  rw [List.mapIdx_concat, run_append, run_finishes_ended h.ended]
  simp only [run_cons, run_nil, heffects]
  exact ⟨rfl, hgrammars, h.setProgress hattempts (calls_step_finish r _ _)⟩

theorem Fresh.wakes {o : Except LoadFault Grammar} (h : Fresh name n m (.finished o) r) :
    let out := r.run ((List.range (m + 1)).map .wake)
    out.2 = [] ∧ out.1.grammars = r.grammars ∧
      out.1.calls[m]? = some ⟨name, some n, statusOf o⟩ := by
  -- the new call is the last one to wake up
  rw [List.range_succ, List.map_append, run_append]
  obtain ⟨heffects, older⟩ := run_wakes r (List.range m)
  generalize (r.run ((List.range m).map .wake)).1 = r' at older ⊢
  have hc : r'.calls[m]? = some ⟨name, some n, .waiting⟩ :=
    older.call h.call (.inl List.not_mem_range_self)
  have ho : r'.outcome? n = some o := by
    rw [older.outcome?]
    exact outcome?_of_getElem? h.attempt
  have hs : r'.step (.wake m) =
      ((r'.release name n).setStatus m ⟨name, some n, .waiting⟩ (statusOf o), []) :=
    congrArg (·, []) (wake_finished hc rfl rfl ho)
  simp only [List.map_cons, List.map_nil, run_cons, run_nil, hs, heffects]
  refine ⟨rfl, by simp [older.grammars], ?_⟩
  rw [← calls_release r' name n] at hc
  exact (getElem?_calls_set hc hc).trans (by rw [if_pos rfl])

end Fresh

/-- Settling after a call that has made an attempt calls the loader once, and the call ends with what
the loader has answered. -/
theorem settle_scheduled (ended : ∀ k < r.attempts.length, (r.outcome? k).isSome = true) (name : String)
    (loader : String → Except LoadFault Grammar) :
    let out := ((r.schedule name).addCall ⟨name, some r.attempts.length, .waiting⟩).settle loader
    out.2 = [.load name, .log (endNotice name (loader name))] ∧
      out.1.grammars = r.grammarsAfter name (loader name) ∧
      out.1.calls[r.calls.length]? =
        some ⟨name, some r.attempts.length, statusOf (loader name)⟩ := by
  have h₀ := fresh_of_ended ended name
  obtain ⟨he₁, hg₁, h₁⟩ := h₀.starts
  obtain ⟨he₂, hg₂, h₂⟩ := h₁.finishes (p := .scheduled)
    (rfl : r.attempts.length = r.attempts.length) fun a => loader a.name
  obtain ⟨he₃, hg₃, hc₃⟩ := h₂.wakes
  have hevents : settleEvents loader
      ((r.schedule name).addCall ⟨name, some r.attempts.length, .waiting⟩) =
        (List.range (r.attempts.length + 1)).map .start ++
          (r.attempts ++ [Attempt.mk name .scheduled]).mapIdx (fun k a => .finish k (loader a.name)) ++
          (List.range (r.calls.length + 1)).map .wake := by
    simp [settleEvents]
  unfold settle
  rw [hevents, run_append, run_append]
  refine ⟨by rw [he₁, he₂, he₃]; rfl, ?_, hc₃⟩
  rw [hg₃, hg₂]
  unfold grammarsAfter
  rw [hg₁]
  rfl

/-- Settling where all attempts have ended only wakes calls up. -/
theorem settle_of_ended (ended : ∀ k < r.attempts.length, (r.outcome? k).isSome = true)
    (loader : String → Except LoadFault Grammar) :
    (r.settle loader).2 = [] ∧ Leaves (List.range r.calls.length) r (r.settle loader).1 := by
  unfold settle settleEvents
  rw [run_append, run_append, run_starts_ended fun k hk => ended k (List.mem_range.mp hk),
    run_finishes_ended ended]
  exact run_wakes r (List.range r.calls.length)

/-- The ways in which a call ends that finds no attempt to wait for, when the loader answers `o` for its
name: with its status, the grammars after it, and its effects. -/
inductive Serves (r : Registry) (name : String) (o : Except LoadFault Grammar) :
    CallStatus → Table Grammar → List Effect → Prop where
  | present {g : Grammar} (registered : r.grammars.get? name = some g) :
      Serves r name o .returned r.grammars [.log (.alreadyLoaded name)]
  | asked (unregistered : r.grammars.get? name = none) :
      Serves r name o (statusOf o) (r.grammarsAfter name o) [.load name, .log (endNotice name o)]

theorem call_serves (ended : ∀ k < r.attempts.length, (r.outcome? k).isSome = true)
    {language name : String} (named : Language.normalize language = name)
    (free : r.grammars.get? name = none → r.pending.get? name = none)
    (loader : String → Except LoadFault Grammar) :
    ∃ k s, ((r.call language).1.settle loader).1.calls[r.calls.length]? = some ⟨name, k, s⟩ ∧
      Serves r name (loader name) s ((r.call language).1.settle loader).1.grammars
        ((r.call language).2 ++ ((r.call language).1.settle loader).2) := by
  cases hg : r.grammars.get? name with
  | some g =>
    obtain ⟨heffects, after⟩ := settle_of_ended (r := r.addCall ⟨name, none, .returned⟩) ended loader
    have hc : (r.addCall ⟨name, none, .returned⟩).calls[r.calls.length]? =
        some ⟨name, none, .returned⟩ := by simp
    rw [call_registered named hg]
    dsimp only
    rw [heffects, after.grammars]
    exact ⟨none, .returned, after.call hc (.inr rfl), .present hg⟩
  | none =>
    obtain ⟨heffects, hgrammars, hc⟩ := settle_scheduled ended name loader
    rw [call_free named hg (free hg)]
    dsimp only
    rw [heffects, hgrammars]
    exact ⟨_, _, hc, .asked hg⟩

theorem Settled.addCall (h : Settled r) {c : LoadCall} (hc : c.status.isOver = true) :
    Settled (r.addCall c) where
  attempt := h.attempt
  call i c' hi := by
    rw [calls_addCall, List.getElem?_append] at hi
    split at hi
    · exact h.call i c' hi
    · have hm := List.mem_of_getElem? hi
      rw [List.mem_singleton.mp hm]
      exact hc

theorem Settled.release (h : Settled r) (name : String) (k : Nat) : Settled (r.release name k) where
  attempt j hj := by
    rw [outcome?_release]
    exact h.attempt j (by simpa using hj)
  call i c hi := by
    rw [calls_release] at hi
    exact h.call i c hi

/-- The ways in which a call in a settled registry ends, when the loader answers `o` for its name:
with its status, the grammars after it, and its effects. -/
inductive Loads (r : Registry) (name : String) (o : Except LoadFault Grammar) :
    CallStatus → Table Grammar → List Effect → Prop where
  | present {g : Grammar} (registered : r.grammars.get? name = some g) :
      Loads r name o .returned r.grammars [.log (.alreadyLoaded name)]
  | leftover {fault : LoadFault} (unregistered : r.grammars.get? name = none) :
      Loads r name o (.raised fault) r.grammars []
  | loaded (unregistered : r.grammars.get? name = none) :
      Loads r name o (statusOf o) (r.grammarsAfter name o) [.load name, .log (endNotice name o)]

theorem Serves.loads {name : String} {o : Except LoadFault Grammar} {s : CallStatus}
    {grammars : Table Grammar} (h : Serves r name o s grammars effects) :
    Loads r name o s grammars effects := by
  cases h with
  | present registered => exact .present registered
  | asked unregistered => exact .loaded unregistered

theorem Coherent.loads (h : Coherent r) (hs : Settled r) {language name : String}
    (named : Language.normalize language = name) (loader : String → Except LoadFault Grammar) :
    ∃ k s, ((r.call language).1.settle loader).1.calls[r.calls.length]? = some ⟨name, k, s⟩ ∧
      Loads r name (loader name) s ((r.call language).1.settle loader).1.grammars
        ((r.call language).2 ++ ((r.call language).1.settle loader).2) := by
  by_cases free : r.grammars.get? name = none → r.pending.get? name = none
  · obtain ⟨k, s, hc, served⟩ := call_serves hs.attempt named free loader
    exact ⟨k, s, hc, served.loads⟩
  -- the attempt of an older call has failed, and none of the calls that shared it has taken its end in
  · obtain ⟨hg, hp⟩ := Classical.not_imp.mp free
    obtain ⟨k, hp⟩ := Option.ne_none_iff_exists'.mp hp
    obtain ⟨p, hk⟩ := h.pending hp
    obtain ⟨o, ho⟩ := Option.isSome_iff_exists.mp
      (hs.attempt k (List.getElem?_eq_some_iff.mp hk).1)
    cases o with
    | ok g =>
      obtain ⟨other, hk'⟩ := outcome?_eq_some_iff.mp ho
      rw [hk] at hk'
      cases hk'
      rw [h.registered.mpr ⟨k, hk⟩] at hg
      cases hg
    | error fault =>
      have hover : Settled ((r.release name k).addCall ⟨name, some k, .raised fault⟩) :=
        (hs.release name k).addCall rfl
      have hl : Loads r name (loader name) (.raised fault) r.grammars [] := .leftover hg
      rw [call_finished named hg hp ho]
      dsimp only [statusOf]
      rw [settle_of_settled hover]
      exact ⟨some k, .raised fault, by simp, by simpa using hl⟩

end Registry
end CodeIndex
