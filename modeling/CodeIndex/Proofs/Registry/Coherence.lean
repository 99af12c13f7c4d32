import CodeIndex.Proofs.Registry.Transition

/-!
# CodeIndex.Proofs.Registry.Coherence

How the parts of a registry fit together, after any events.

* `Coherent`: the pending map, the attempts, the grammars and the calls agree. An attempt that is not
  finished is the pending one of its name, and the registered grammars are those of the attempts that
  succeeded.
* `LoadCall.Fits`: what the parts say about one call. A call that was answered has the answer of its
  attempt, and it has taken that attempt out of the pending ones.
* `Grows`: the parts that only ever gain. Steps grow a coherent registry, and `Fits` is kept by growth.
* `coherent_run`: every registry that is reached from the empty one is coherent.
-/

namespace CodeIndex

/-- What the parts of a registry say about a call. -/
structure LoadCall.Fits (r : Registry) (c : LoadCall) : Prop where
  present : c.attempt = none → c.status = .returned ∧ ∃ g, r.grammars.get? c.name = some g
  attempt : ∀ {k : Nat}, c.attempt = some k → ∃ p, r.attempts[k]? = some ⟨c.name, p⟩
  answer : ∀ {k : Nat}, c.attempt = some k → c.status.isAnswer = true →
    ∃ outcome, r.outcome? k = some outcome ∧ c.status = Registry.statusOf outcome
  released : ∀ {k : Nat}, c.attempt = some k → c.status.isAnswer = true →
    r.pending.get? c.name ≠ some k

namespace Registry

structure Coherent (r : Registry) : Prop where
  pending : ∀ {name : String} {k : Nat}, r.pending.get? name = some k →
    ∃ p, r.attempts[k]? = some ⟨name, p⟩
  unfinished : ∀ {k : Nat} {name : String} {p : Progress}, r.attempts[k]? = some ⟨name, p⟩ →
    p.outcome? = none → r.pending.get? name = some k ∧ r.grammars.get? name = none
  registered : ∀ {name : String} {g : Grammar}, r.grammars.get? name = some g ↔
    ∃ k : Nat, r.attempts[k]? = some ⟨name, .finished (.ok g)⟩
  call : ∀ c ∈ r.calls, c.Fits r
  caller : ∀ {k : Nat} {a : Attempt}, r.attempts[k]? = some a → ∃ c ∈ r.calls, c.attempt = some k

/-- The parts that only gain: what is registered, the names of attempts, their outcomes, and what is
no longer pending. -/
structure Grows (r r' : Registry) : Prop where
  grammar : ∀ {name : String} {g : Grammar}, r.grammars.get? name = some g →
    r'.grammars.get? name = some g
  attempt : ∀ {k : Nat} {name : String} {p : Progress}, r.attempts[k]? = some ⟨name, p⟩ →
    ∃ p', r'.attempts[k]? = some ⟨name, p'⟩
  outcome : ∀ {k : Nat} {o : Except LoadFault Grammar}, r.outcome? k = some o →
    r'.outcome? k = some o
  released : ∀ {k : Nat} {name : String}, (r.outcome? k).isSome = true →
    r.pending.get? name ≠ some k → r'.pending.get? name ≠ some k

variable {r r' : Registry} {e : Event} {effects : List Effect}

theorem Grows.refl (r : Registry) : Grows r r :=
  ⟨id, fun h => ⟨_, h⟩, id, fun _ h => h⟩

theorem Grows.trans {r₁ r₂ r₃ : Registry} (h : Grows r₁ r₂) (h' : Grows r₂ r₃) : Grows r₁ r₃ where
  grammar hg := h'.grammar (h.grammar hg)
  attempt hk := by
    obtain ⟨p, hp⟩ := h.attempt hk
    exact h'.attempt hp
  outcome ho := h'.outcome (h.outcome ho)
  released ho hn := by
    obtain ⟨o, hk⟩ := Option.isSome_iff_exists.mp ho
    exact h'.released (by rw [h.outcome hk]; rfl) (h.released ho hn)

theorem Grows.fits {c : LoadCall} (h : Grows r r') (hc : c.Fits r) : c.Fits r' where
  present hn := by
    obtain ⟨hs, g, hg⟩ := hc.present hn
    exact ⟨hs, g, h.grammar hg⟩
  attempt hk := by
    obtain ⟨p, hp⟩ := hc.attempt hk
    exact h.attempt hp
  answer hk hs := by
    obtain ⟨o, ho, hs⟩ := hc.answer hk hs
    exact ⟨o, h.outcome ho, hs⟩
  released hk hs := by
    obtain ⟨o, ho, -⟩ := hc.answer hk hs
    exact h.released (by rw [ho]; rfl) (hc.released hk hs)

/-! ## Growth -/

theorem grows_addCall (r : Registry) (c : LoadCall) : Grows r (r.addCall c) :=
  ⟨id, fun h => ⟨_, h⟩, id, fun _ h => h⟩

theorem grows_setStatus (r : Registry) (i : Nat) (c : LoadCall) (s : CallStatus) :
    Grows r (r.setStatus i c s) :=
  ⟨id, fun h => ⟨_, h⟩, id, fun _ h => h⟩

theorem grows_release (r : Registry) (name : String) (k : Nat) : Grows r (r.release name k) where
  grammar hg := by simpa using hg
  attempt hk := ⟨_, by simpa using hk⟩
  outcome ho := by simpa using ho
  released _ hn hk := hn (pending_of_pending_release hk)

theorem grows_schedule (r : Registry) (name : String) : Grows r (r.schedule name) where
  grammar hg := hg
  attempt hk := ⟨_, getElem?_schedule_of_some name hk⟩
  outcome ho := by
    rw [outcome?_schedule]
    exact ho
  released := by
    intro k other ho hn hp
    rw [get?_pending_schedule] at hp
    split at hp
    · cases hp
      simp [outcome?] at ho
    · exact hn hp

theorem grows_setProgress {k : Nat} {name : String} {p p' : Progress}
    (hk : r.attempts[k]? = some ⟨name, p⟩) (hp : p.outcome? = none) :
    Grows r (r.setProgress k name p') where
  grammar hg := hg
  attempt := by
    intro j other q hj
    rw [attempts_setProgress, List.getElem?_set]
    split
    · rename_i he
      subst he
      rw [hk] at hj
      cases hj
      exact ⟨p', by rw [if_pos (List.getElem?_eq_some_iff.mp hk).1]⟩
    · exact ⟨q, hj⟩
  outcome := by
    intro j o ho
    obtain ⟨other, hj⟩ := outcome?_eq_some_iff.mp ho
    have hne : k ≠ j := by
      rintro rfl
      rw [hk] at hj
      cases hj
      cases hp
    refine outcome?_eq_some_iff.mpr ⟨other, ?_⟩
    rw [attempts_setProgress, List.getElem?_set, if_neg hne]
    exact hj
  released _ hn := hn

theorem Does.grows (h : Does r e r' effects) (hr : Coherent r) : Grows r r' := by
  cases h with
  | idle => exact .refl r
  | present | joined => exact grows_addCall r _
  | answered => exact (grows_release r _ _).trans (grows_addCall _ _)
  | scheduled => exact (grows_schedule r _).trans (grows_addCall _ _)
  | cancelled => exact grows_setStatus r _ _ _
  | woken | left => exact (grows_release r _ _).trans (grows_setStatus _ _ _ _)
  | started found => exact grows_setProgress found rfl
  | @succeeded k name g found =>
    have hp : Grows r (r.setProgress k name (.finished (.ok g))) := grows_setProgress found rfl
    refine ⟨fun {other g'} hg => ?_, hp.attempt, hp.outcome, hp.released⟩
    have hne : name ≠ other := by
      rintro rfl
      rw [(hr.unfinished found rfl).2] at hg
      cases hg
    rw [Table.get?_insert, if_neg hne]
    exact hg
  | failed found => exact grows_setProgress found rfl

/-! ## Coherence is kept -/

theorem coherent_empty : Coherent {} where
  pending h := by cases h
  unfinished h := by cases h
  registered := by
    intro name g
    constructor
    · intro h
      cases h
    · rintro ⟨k, h⟩
      cases h
  call c hc := by cases hc
  caller h := by cases h

namespace Coherent

theorem addCall (h : Coherent r) {c : LoadCall} (hc : c.Fits r) : Coherent (r.addCall c) where
  pending := h.pending
  unfinished := h.unfinished
  registered := h.registered
  call := by
    intro c' hc'
    rw [calls_addCall, List.mem_append, List.mem_singleton] at hc'
    rcases hc' with hc' | rfl
    · exact (grows_addCall r c).fits (h.call c' hc')
    · exact (grows_addCall r c').fits hc
  caller hk := by
    obtain ⟨c', hc', ha⟩ := h.caller hk
    exact ⟨c', List.mem_append_left _ hc', ha⟩

theorem setStatus (h : Coherent r) {i : Nat} {c : LoadCall} {s : CallStatus}
    (hi : r.calls[i]? = some c) (hc : LoadCall.Fits r { c with status := s }) :
    Coherent (r.setStatus i c s) where
  pending := h.pending
  unfinished := h.unfinished
  registered := h.registered
  call := by
    intro c' hc'
    rcases List.mem_or_eq_of_mem_set hc' with hc' | rfl
    · exact (grows_setStatus r i c s).fits (h.call c' hc')
    · exact (grows_setStatus r i c s).fits hc
  caller := by
    intro k a hk
    obtain ⟨c', hc', ha⟩ := h.caller hk
    obtain ⟨j, hj⟩ := List.mem_iff_getElem?.mp hc'
    by_cases he : i = j
    · subst he
      rw [hi] at hj
      cases hj
      exact ⟨_, List.mem_set (List.getElem?_eq_some_iff.mp hi).1 _, ha⟩
    · refine ⟨c', List.mem_iff_getElem?.mpr ⟨j, ?_⟩, ha⟩
      rw [calls_setStatus, List.getElem?_set, if_neg he]
      exact hj

theorem release (h : Coherent r) (name : String) (k : Nat) : Coherent (r.release name k) where
  pending hk := by
    rw [attempts_release]
    exact h.pending (pending_of_pending_release hk)
  unfinished hk hp := by
    rw [attempts_release] at hk
    rw [grammars_release]
    obtain ⟨hn, hg⟩ := h.unfinished hk hp
    exact ⟨pending_release_of_unfinished hn (by rw [outcome?_of_getElem? hk]; exact hp), hg⟩
  registered := by
    rw [grammars_release, attempts_release]
    exact h.registered
  call := by
    intro c hc
    rw [calls_release] at hc
    exact (grows_release r name k).fits (h.call c hc)
  caller hk := by
    rw [attempts_release] at hk
    rw [calls_release]
    exact h.caller hk

/-- A name that is free gets an attempt and a call that waits for it. -/
theorem schedule (h : Coherent r) {name : String} (unregistered : r.grammars.get? name = none)
    (free : r.pending.get? name = none) :
    Coherent ((r.schedule name).addCall ⟨name, some r.attempts.length, .waiting⟩) where
  pending := by
    intro other k hk
    rw [pending_addCall, get?_pending_schedule] at hk
    rw [attempts_addCall, getElem?_schedule]
    split at hk
    · rename_i hn
      cases hk
      subst hn
      exact ⟨_, if_pos rfl⟩
    · obtain ⟨p, hp⟩ := h.pending hk
      exact ⟨p, by rw [← getElem?_schedule, getElem?_schedule_of_some name hp]⟩
  unfinished := by
    intro k other p hk hp
    rw [pending_addCall, get?_pending_schedule, grammars_addCall, grammars_schedule]
    rcases getElem?_schedule_cases hk with hk | ⟨rfl, ha⟩
    · obtain ⟨hn, hg⟩ := h.unfinished hk hp
      have hne : name ≠ other := by
        rintro rfl
        rw [free] at hn
        cases hn
      rw [if_neg hne]
      exact ⟨hn, hg⟩
    · cases ha
      rw [if_pos rfl]
      exact ⟨rfl, unregistered⟩
  registered := by
    intro other g
    rw [grammars_addCall, grammars_schedule, h.registered]
    constructor
    · rintro ⟨k, hk⟩
      exact ⟨k, getElem?_schedule_of_some name hk⟩
    · rintro ⟨k, hk⟩
      rcases getElem?_schedule_cases hk with hk | ⟨-, ha⟩
      · exact ⟨k, hk⟩
      · cases ha
  call := by
    intro c hc
    rw [calls_addCall, List.mem_append, List.mem_singleton] at hc
    rcases hc with hc | rfl
    · exact ((grows_schedule r name).trans (grows_addCall _ _)).fits (h.call c hc)
    · refine ⟨nofun, fun hk => ?_, fun _ hs => (by cases hs), fun _ hs => (by cases hs)⟩
      cases hk
      exact ⟨_, by rw [attempts_addCall, getElem?_schedule, if_pos rfl]⟩
  caller := by
    intro k a hk
    rw [calls_addCall]
    rcases getElem?_schedule_cases hk with hk | ⟨rfl, -⟩
    · obtain ⟨c, hc, ha⟩ := h.caller hk
      exact ⟨c, List.mem_append_left _ hc, ha⟩
    · exact ⟨_, List.mem_append_right _ (List.mem_singleton_self _), rfl⟩

section Progress

variable {k : Nat} {name : String} {p p' : Progress}

theorem getElem?_setProgress (hk : r.attempts[k]? = some ⟨name, p⟩) {j : Nat} {other : String}
    {q : Progress} :
    (r.setProgress k name p').attempts[j]? = some ⟨other, q⟩ ↔
      (j = k ∧ other = name ∧ q = p') ∨ (j ≠ k ∧ r.attempts[j]? = some ⟨other, q⟩) := by
  rw [attempts_setProgress, List.getElem?_set]
  by_cases he : k = j
  · subst he
    rw [if_pos rfl, if_pos (List.getElem?_eq_some_iff.mp hk).1]
    simp only [Option.some.injEq, Attempt.mk.injEq, true_and, ne_eq, not_true_eq_false, false_and,
      or_false]
    exact ⟨fun h => ⟨h.1.symm, h.2.symm⟩, fun h => ⟨h.1.symm, h.2.symm⟩⟩
  · rw [if_neg he]
    simp [Ne.symm he]

theorem pending_setProgress_named (h : Coherent r) (hk : r.attempts[k]? = some ⟨name, p⟩)
    (hp : p.outcome? = none) {other : String} {j : Nat} (hj : r.pending.get? other = some j) :
    ∃ q, (r.setProgress k name p').attempts[j]? = some ⟨other, q⟩ := by
  obtain ⟨q, hq⟩ := h.pending hj
  exact (grows_setProgress hk hp).attempt hq

/-- An attempt that gets further without success registers nothing. -/
theorem registered_setProgress (h : Coherent r) (hk : r.attempts[k]? = some ⟨name, p⟩)
    (hp : p.outcome? = none) (unsuccessful : ∀ g, p' ≠ .finished (.ok g)) {other : String}
    {g : Grammar} :
    (r.setProgress k name p').grammars.get? other = some g ↔
      ∃ j : Nat, (r.setProgress k name p').attempts[j]? = some ⟨other, .finished (.ok g)⟩ := by
  rw [grammars_setProgress, h.registered]
  constructor
  · rintro ⟨j, hj⟩
    refine ⟨j, (getElem?_setProgress hk).mpr (.inr ⟨?_, hj⟩)⟩
    rintro rfl
    rw [hk] at hj
    cases hj
    cases hp
  · rintro ⟨j, hj⟩
    rcases (getElem?_setProgress hk).mp hj with ⟨-, -, hq⟩ | ⟨-, hj⟩
    · exact absurd hq.symm (unsuccessful g)
    · exact ⟨j, hj⟩

theorem caller_setProgress (h : Coherent r) (hk : r.attempts[k]? = some ⟨name, p⟩) {j : Nat}
    {a : Attempt} (hj : (r.setProgress k name p').attempts[j]? = some a) :
    ∃ c ∈ r.calls, c.attempt = some j := by
  rcases (getElem?_setProgress hk).mp hj with ⟨rfl, -, -⟩ | ⟨-, hj⟩
  · exact h.caller hk
  · exact h.caller hj

theorem start (h : Coherent r) (hk : r.attempts[k]? = some ⟨name, .scheduled⟩) :
    Coherent (r.setProgress k name .running) where
  pending := h.pending_setProgress_named hk rfl
  unfinished := by
    intro j other q hj hq
    rcases (getElem?_setProgress hk).mp hj with ⟨rfl, rfl, -⟩ | ⟨-, hj⟩
    · exact h.unfinished hk rfl
    · exact h.unfinished hj hq
  registered := h.registered_setProgress hk rfl fun _ hq => by cases hq
  call c hc := (grows_setProgress hk rfl).fits (h.call c hc)
  caller := h.caller_setProgress hk

theorem fail (h : Coherent r) (hk : r.attempts[k]? = some ⟨name, .running⟩) (fault : LoadFault) :
    Coherent (r.setProgress k name (.finished (.error fault))) where
  pending := h.pending_setProgress_named hk rfl
  unfinished := by
    intro j other q hj hq
    rcases (getElem?_setProgress hk).mp hj with ⟨-, -, rfl⟩ | ⟨-, hj⟩
    · cases hq
    · exact h.unfinished hj hq
  registered := h.registered_setProgress hk rfl fun _ hq => by cases hq
  call c hc := (grows_setProgress hk rfl).fits (h.call c hc)
  caller := h.caller_setProgress hk

theorem succeed (h : Coherent r) (hk : r.attempts[k]? = some ⟨name, .running⟩) (g : Grammar) :
    Coherent { r.setProgress k name (.finished (.ok g)) with
      grammars := r.grammars.insert name g } where
  pending := h.pending_setProgress_named hk rfl
  unfinished := by
    intro j other q hj hq
    rcases (getElem?_setProgress hk).mp hj with ⟨-, -, rfl⟩ | ⟨hne, hj⟩
    · cases hq
    · obtain ⟨hn, hg⟩ := h.unfinished hj hq
      refine ⟨hn, ?_⟩
      have hname : name ≠ other := by
        rintro rfl
        rw [(h.unfinished hk rfl).1] at hn
        cases hn
        exact hne rfl
      rw [Table.get?_insert, if_neg hname]
      exact hg
  registered := by
    intro other g'
    rw [Table.get?_insert]
    constructor
    · intro hg
      split at hg
      · rename_i hn
        cases hg
        exact ⟨k, (getElem?_setProgress hk).mpr (.inl ⟨rfl, hn.symm, rfl⟩)⟩
      · obtain ⟨j, hj⟩ := h.registered.mp hg
        refine ⟨j, (getElem?_setProgress hk).mpr (.inr ⟨?_, hj⟩)⟩
        rintro rfl
        rw [hk] at hj
        cases hj
    · rintro ⟨j, hj⟩
      rcases (getElem?_setProgress hk).mp hj with ⟨-, rfl, hq⟩ | ⟨-, hj⟩
      · cases hq
        rw [if_pos rfl]
      · have hg := h.registered.mpr ⟨j, hj⟩
        rw [if_neg, hg]
        rintro rfl
        rw [(h.unfinished hk rfl).2] at hg
        cases hg
  call c hc := by
    have hd : Does r (.finish k (.ok g)) _ _ := .succeeded hk
    exact (hd.grows h).fits (h.call c hc)
  caller := h.caller_setProgress hk

end Progress

/-! ## Every event -/

theorem does (h : Coherent r) (hd : Does r e r' effects) : Coherent r' := by
  cases hd with
  | idle => exact h
  | present _ registered =>
    exact h.addCall ⟨fun _ => ⟨rfl, _, registered⟩, nofun, nofun, nofun⟩
  | joined _ unregistered waits unfinished =>
    refine h.addCall ⟨nofun, fun hk => ?_, fun _ hs => (by cases hs), fun _ hs => (by cases hs)⟩
    cases hk
    exact h.pending waits
  | @answered language name k outcome _ unregistered waits finished =>
    have hr := h.release name k
    refine hr.addCall ⟨nofun, fun hk => ?_, fun hk _ => ?_, fun hk _ => ?_⟩ <;> cases hk
    · rw [attempts_release]
      exact h.pending waits
    · exact ⟨outcome, by rw [outcome?_release, finished], rfl⟩
    · exact pending_release_ne (by rw [finished]; rfl)
  | scheduled _ unregistered free => exact h.schedule unregistered free
  | @cancelled i c found waits =>
    have hc := h.call c (List.mem_of_getElem? found)
    refine h.setStatus found ⟨fun hn => ?_, hc.attempt, fun _ hs => (by cases hs),
      fun _ hs => (by cases hs)⟩
    rw [(hc.present hn).1] at waits
    cases waits
  | @woken i k c outcome found serves waits finished =>
    have hr := h.release c.name k
    have hc := hr.call c (List.mem_of_getElem? (by rw [calls_release]; exact found))
    refine hr.setStatus (by rw [calls_release]; exact found)
      ⟨fun hn => ?_, hc.attempt, fun hk _ => ?_, fun hk _ => ?_⟩
    · rw [serves] at hn
      cases hn
    · rw [serves] at hk
      cases hk
      exact ⟨outcome, by rw [outcome?_release, finished], rfl⟩
    · rw [serves] at hk
      cases hk
      exact pending_release_ne (by rw [finished]; rfl)
  | @left i k c found serves leaves =>
    have hr := h.release c.name k
    have hc := hr.call c (List.mem_of_getElem? (by rw [calls_release]; exact found))
    refine hr.setStatus (by rw [calls_release]; exact found)
      ⟨fun hn => ?_, hc.attempt, fun _ hs => (by cases hs), fun _ hs => (by cases hs)⟩
    rw [serves] at hn
    cases hn
  | started found => exact h.start found
  | succeeded found => exact h.succeed found _
  | failed found => exact h.fail found _

theorem step (h : Coherent r) (e : Event) : Coherent (r.step e).1 := h.does (step_does r e)

theorem run (h : Coherent r) (events : List Event) : Coherent (r.run events).1 :=
  run_induction (fun _ e hr => hr.step e) h events

/-- What is registered stays so, and attempts keep their names and outcomes. -/
theorem grows_run (h : Coherent r) (events : List Event) : Grows r (r.run events).1 :=
  (run_induction (P := fun r' => Coherent r' ∧ Grows r r')
    (fun _ e hr => ⟨hr.1.step e, hr.2.trans ((step_does _ e).grows hr.1)⟩) ⟨h, .refl r⟩ events).2

end Coherent

theorem coherent_run (events : List Event) : Coherent ((({} : Registry).run events).1) :=
  coherent_empty.run events

end Registry
end CodeIndex
