import CodeIndex.Proofs.Registry.Progress

/-!
# CodeIndex.Proofs.Registry.Retry

Loading again after a failure.

* `Retryable`: a name is not registered, and nothing is under way that a new call could share.
* `Retries`: the next call has an attempt that calls the loader once, and it reports the outcome.
* `leftover?`: the failure of an ended attempt that is still pending, since all calls that could take
  it out were cancelled before its end.
* `retries_iff`: the next call retries unless a failure is left over. In that case it reports this
  failure, without an attempt of its own, and the call after it retries.
-/

namespace CodeIndex
namespace Registry

/-- The failure of the attempt that is pending for a name, if it has failed already. -/
def leftover? (r : Registry) (name : String) : Option LoadFault :=
  match (r.pending.get? name).bind r.outcome? with
  | some (.error fault) => some fault
  | _ => none

/-- The name is not registered, the loader does not run for it, and no call waits for it. -/
structure Retryable (r : Registry) (name : String) : Prop where
  unregistered : r.grammars.get? name = none
  idle : ∀ k : Nat, r.attempts[k]? ≠ some ⟨name, .running⟩
  alone : ∀ c ∈ r.calls, c.name = name → c.status ≠ .waiting

/-- A call and later events after which it has the outcome of attempt `k`, which it got from the one
loader call for `k`, made and ended after the call had started. -/
def Answered (r : Registry) (language : String) (k : Nat) (later : List Event) : Prop :=
  ∃ outcome,
    (r.run (.call language :: later)).1.calls[r.calls.length]? =
      some ⟨Language.normalize language, some k, statusOf outcome⟩ ∧
    (r.run (.call language :: later)).1.attempts[k]? =
      some ⟨Language.normalize language, .finished outcome⟩ ∧
    .finish k outcome ∈ later ∧ r.loaderCalls k (.call language :: later) = 1

/-- Whatever happens after the next call for a language, as long as it is not cancelled: it is answered
from one loader call, or it waits and is so answered three events later. -/
def Retries (r : Registry) (language : String) : Prop :=
  ∃ k : Nat, ∀ later : List Event, .cancel r.calls.length ∉ later →
    r.Answered language k later ∨
      ((r.run (.call language :: later)).1.calls[r.calls.length]? =
          some ⟨Language.normalize language, some k, .waiting⟩ ∧
        ∀ o, r.Answered language k (later ++ [.start k, .finish k o, .wake r.calls.length]))

variable {r : Registry} {language name : String} {k : Nat}

theorem leftover?_eq_some_iff {fault : LoadFault} :
    r.leftover? name = some fault ↔
      ∃ k, r.pending.get? name = some k ∧ r.outcome? k = some (.error fault) := by
  unfold leftover?
  constructor
  · intro h
    split at h
    · rename_i f hf
      cases h
      exact Option.bind_eq_some_iff.mp hf
    · cases h
  · intro h
    rw [Option.bind_eq_some_iff.mpr h]

theorem hasBegun_of_outcome? {o : Except LoadFault Grammar} (h : r.outcome? k = some o) :
    r.hasBegun k = true := by
  obtain ⟨name, hk⟩ := outcome?_eq_some_iff.mp h
  rw [hasBegun_of_getElem? hk]
  rfl

namespace Coherent

/-! ## A new attempt, or one that has not begun -/

/-- A pending attempt of a name that is not registered is under way or has failed. -/
theorem unfinished_of_free (h : Coherent r) (unregistered : r.grammars.get? name = none)
    (free : r.leftover? name = none) (waits : r.pending.get? name = some k) :
    r.outcome? k = none := by
  cases ho : r.outcome? k with
  | none => rfl
  | some o =>
    cases o with
    | error fault =>
      rw [leftover?_eq_some_iff.mpr ⟨k, waits, ho⟩] at free
      cases free
    | ok g =>
      obtain ⟨p, hp⟩ := h.pending waits
      obtain ⟨other, hk⟩ := outcome?_eq_some_iff.mp ho
      rw [hp] at hk
      cases hk
      rw [h.registered.mpr ⟨k, hp⟩] at unregistered
      cases unregistered

/-- The next call waits for an attempt that has not begun. -/
theorem call_waits (h : Coherent r) (named : Language.normalize language = name)
    (hr : Retryable r name) (free : r.leftover? name = none) :
    ∃ k : Nat, r.hasBegun k = false ∧
      (r.step (.call language)).1.calls[r.calls.length]? = some ⟨name, some k, .waiting⟩ := by
  cases hp : r.pending.get? name with
  | none =>
    refine ⟨r.attempts.length, by simp [Registry.hasBegun], ?_⟩
    show (r.call language).1.calls[r.calls.length]? = _
    rw [call_free named hr.unregistered hp]
    simp
  | some k =>
    have ho := h.unfinished_of_free hr.unregistered free hp
    obtain ⟨p, hk⟩ := h.pending hp
    refine ⟨k, ?_, ?_⟩
    · rw [hasBegun_of_getElem? hk]
      cases p with
      | scheduled => rfl
      | running => exact absurd hk (hr.idle k)
      | finished o =>
        rw [outcome?_of_getElem? hk] at ho
        cases ho
    · show (r.call language).1.calls[r.calls.length]? = _
      rw [call_unfinished named hr.unregistered hp ho]
      simp

/-- An answer comes from the attempt that the call has waited for. -/
theorem answered_of_isAnswer (h : Coherent r) (named : Language.normalize language = name)
    (fresh : r.hasBegun k = false) {later : List Event} {s : CallStatus}
    (hi : (r.run (.call language :: later)).1.calls[r.calls.length]? = some ⟨name, some k, s⟩)
    (hs : s.isAnswer = true) : r.Answered language k later := by
  have hc := (h.run (.call language :: later)).call _ (List.mem_of_getElem? hi)
  obtain ⟨outcome, ho, hst⟩ := hc.answer rfl hs
  obtain ⟨p, hp⟩ := hc.attempt rfl
  obtain ⟨other, hk⟩ := outcome?_eq_some_iff.mp ho
  rw [hp] at hk
  cases hk
  have hm : .finish k outcome ∈ later := by
    rcases finish_mem_of_outcome? ho with hr | hm
    · rw [hasBegun_of_outcome? hr] at fresh
      cases fresh
    · simpa using hm
  have hl := hasBegun_run r k (.call language :: later)
  rw [fresh, hasBegun_of_outcome? ho] at hl
  refine ⟨outcome, ?_, ?_, hm, by simpa using hl⟩
  · rw [named, hi]
    exact congrArg (fun s => some (LoadCall.mk name (some k) s)) hst
  · rw [named]
    exact hp

theorem retries_of_free (h : Coherent r) (named : Language.normalize language = name)
    (hr : Retryable r name) (free : r.leftover? name = none) : r.Retries language := by
  obtain ⟨k, fresh, hi⟩ := h.call_waits named hr free
  refine ⟨k, fun later hn => ?_⟩
  obtain ⟨s, hs, next⟩ := call_run hi later
  cases s with
  | waiting =>
    refine .inr ⟨by rw [named]; exact hs, fun o => ?_⟩
    have hw : (r.run (.call language :: later)).1.calls[r.calls.length]? =
        some ⟨name, some k, .waiting⟩ := hs
    obtain ⟨ha, -⟩ := (h.run _).answered hw rfl rfl o
    rw [← run_append_fst, List.cons_append] at ha
    exact h.answered_of_isAnswer named fresh ha (isAnswer_statusOf _)
  | returned | raised => exact .inl (h.answered_of_isAnswer named fresh hs rfl)
  | cancelling | cancelled => cases next.uncancelled rfl hn

/-! ## A failure that is left over -/

section Leftover

variable {fault : LoadFault} (waits : r.pending.get? name = some k)
  (failed : r.outcome? k = some (.error fault))

include waits failed

theorem leftover_attempt (h : Coherent r) :
    r.attempts[k]? = some ⟨name, .finished (.error fault)⟩ := by
  obtain ⟨p, hp⟩ := h.pending waits
  obtain ⟨other, hk⟩ := outcome?_eq_some_iff.mp failed
  rw [hp] at hk
  cases hk
  exact hp

/-- All calls for an attempt that is left over were cancelled. -/
theorem leftover_calls (h : Coherent r) (hr : Retryable r name) {c : LoadCall} (hc : c ∈ r.calls)
    (serves : c.attempt = some k) : c.status = .cancelling ∨ c.status = .cancelled := by
  have hf := h.call c hc
  have hn : c.name = name := by
    obtain ⟨p, hp⟩ := hf.attempt serves
    rw [h.leftover_attempt waits failed] at hp
    cases hp
    rfl
  have unanswered : c.status.isAnswer = false := by
    rw [Bool.eq_false_iff]
    intro ha
    exact hf.released serves ha (by rw [hn]; exact waits)
  cases hs : c.status with
  | waiting => exact absurd hs (hr.alone c hc hn)
  | cancelling => exact .inl rfl
  | cancelled => exact .inr rfl
  | returned | raised => simp [hs, CallStatus.isAnswer] at unanswered

theorem call_leftover (named : Language.normalize language = name) (hr : Retryable r name) :
    r.step (.call language) =
      ((r.release name k).addCall ⟨name, some k, .raised fault⟩, []) :=
  call_finished named hr.unregistered waits failed

theorem not_retries_of_leftover (named : Language.normalize language = name)
    (hr : Retryable r name) : ¬ r.Retries language := by
  rintro ⟨j, hj⟩
  have hc := call_leftover waits failed named hr
  have hi : (r.run [.call language]).1.calls[r.calls.length]? =
      some ⟨name, some k, .raised fault⟩ := by
    simp [run_cons, hc]
  rcases hj [] (by simp) with ⟨outcome, -, -, hm, -⟩ | ⟨hw, -⟩
  · cases hm
  · rw [hi] at hw
    cases hw

/-- The call that reports the failure takes it out of the pending ones. -/
theorem retries_after_leftover (h : Coherent r) (named : Language.normalize language = name)
    (hr : Retryable r name) : (r.step (.call language)).1.Retries language := by
  have hs : Coherent (r.step (.call language)).1 := h.step _
  rw [call_leftover waits failed named hr] at hs ⊢
  have hout : (r.release name k).pending.get? name = none := by
    unfold Registry.release
    rw [if_pos ⟨by rw [failed]; rfl, waits⟩, Table.get?_erase, if_pos rfl]
  refine hs.retries_of_free named ⟨by simpa using hr.unregistered, ?_, ?_⟩ ?_
  · simpa using hr.idle
  · intro c hc hn
    rw [calls_addCall, calls_release, List.mem_append, List.mem_singleton] at hc
    rcases hc with hc | rfl
    · exact hr.alone c hc hn
    · exact nofun
  · simp [leftover?, hout]

end Leftover
end Coherent

/-- After any events from the empty registry on, with no grammar, no running loader and no waiting call
for a name: the next call for it loads once and reports the outcome, if and only if no failure is left
over. A failure is left over only where all calls for its attempt were cancelled. The next call then
reports it and calls no loader, and the call after that one loads again. -/
theorem retries_iff (events : List Event) (language : String)
    (h : Retryable (({} : Registry).run events).1 (Language.normalize language)) :
    let r := (({} : Registry).run events).1
    (r.Retries language ↔ r.leftover? (Language.normalize language) = none) ∧
    ∀ fault, r.leftover? (Language.normalize language) = some fault →
      (∃ k : Nat,
        r.attempts[k]? = some ⟨Language.normalize language, .finished (.error fault)⟩ ∧
        (∃ c ∈ r.calls, c.attempt = some k) ∧
        ∀ c ∈ r.calls, c.attempt = some k → c.status = .cancelling ∨ c.status = .cancelled) ∧
      (r.step (.call language)).2 = [] ∧
      (r.step (.call language)).1.status? r.calls.length = some (.raised fault) ∧
      (r.step (.call language)).1.Retries language := by
  intro r
  have hr : Coherent r := coherent_run events
  obtain ⟨name, named⟩ : ∃ name, Language.normalize language = name := ⟨_, rfl⟩
  rw [named] at h ⊢
  refine ⟨⟨fun hret => ?_, hr.retries_of_free named h⟩, fun fault hf => ?_⟩
  · cases hl : r.leftover? name with
    | none => rfl
    | some fault =>
      obtain ⟨k, waits, failed⟩ := leftover?_eq_some_iff.mp hl
      exact absurd hret (Coherent.not_retries_of_leftover waits failed named h)
  · obtain ⟨k, waits, failed⟩ := leftover?_eq_some_iff.mp hf
    have ha := hr.leftover_attempt waits failed
    have hc := Coherent.call_leftover waits failed named h
    refine ⟨⟨k, ha, hr.caller ha, fun c => hr.leftover_calls waits failed h⟩, by rw [hc], ?_,
      hr.retries_after_leftover waits failed named h⟩
    rw [hc]
    simp [status?]

/-- A failure that its call has reported: the next call loads again. -/
theorem retries_after_failure :
    let r := (({} : Registry).run
      [.call "py", .start 0, .finish 0 (.error ⟨"grammar artifact missing"⟩), .wake 0]).1
    Retryable r (Language.normalize "py") ∧ r.Retries "py" := by
  intro r
  have hr : r =
      { attempts := [⟨"python", .finished (.error ⟨"grammar artifact missing"⟩)⟩]
        calls := [⟨"python", some 0, .raised ⟨"grammar artifact missing"⟩⟩] } := rfl
  have named : Language.normalize "py" = "python" := rfl
  have h : Retryable r (Language.normalize "py") := by
    rw [named, hr]
    refine ⟨rfl, fun k hk => ?_, ?_⟩
    · cases List.mem_singleton.mp (List.mem_of_getElem? hk)
    · simp
  have free : r.leftover? (Language.normalize "py") = none := by
    rw [named, hr]
    rfl
  exact ⟨h, (retries_iff _ "py" h).1.mpr free⟩

/-- A failure that no call has reported, since the only call had been cancelled: the next call reports
it instead of loading again. -/
theorem not_retries_after_cancel :
    let r := (({} : Registry).run
      [.call "py", .cancel 0, .wake 0, .start 0,
        .finish 0 (.error ⟨"grammar artifact missing"⟩)]).1
    Retryable r (Language.normalize "py") ∧ ¬ r.Retries "py" := by
  intro r
  have hr : r =
      { pending := [("python", 0)]
        attempts := [⟨"python", .finished (.error ⟨"grammar artifact missing"⟩)⟩]
        calls := [⟨"python", some 0, .cancelled⟩] } := rfl
  have named : Language.normalize "py" = "python" := rfl
  have h : Retryable r (Language.normalize "py") := by
    rw [named, hr]
    refine ⟨rfl, fun k hk => ?_, ?_⟩
    · cases List.mem_singleton.mp (List.mem_of_getElem? hk)
    · simp
  have waits : r.pending.get? (Language.normalize "py") = some 0 := by
    rw [named, hr]
    rfl
  have failed : r.outcome? 0 = some (.error ⟨"grammar artifact missing"⟩) := by
    rw [hr]
    rfl
  exact ⟨h, Coherent.not_retries_of_leftover waits failed rfl h⟩

end Registry
end CodeIndex
