import CodeIndex.Proofs.Registry.Gathering

/-!
# CodeIndex.Proofs.Registry.Idle

A registry with no pending load. Calls that have been answered and have not noticed it yet may be left
over in it.

* `idle_of_pending`: where attempts and calls fit together, all attempts have ended if none is pending.
* `Action.load_serves`: a load that finds no attempt to wait for returns if its name is registered, and else
  it ends with what the loader answers.
-/

namespace CodeIndex

namespace Registry

structure Idle (r : Registry) : Prop where
  pending : ∀ name, r.pending.get? name = none
  ended : ∀ k < r.attempts.length, (r.outcome? k).isSome = true

theorem idle_of_pending {r : Registry} (h : Coherent r)
    (pending : ∀ name, r.pending.get? name = none) : Idle r where
  pending := pending
  ended k hk := by
    obtain ⟨outcome, ha⟩ := h.ended_of_idle pending (List.getElem?_eq_getElem hk)
    rw [outcome?_of_getElem? (List.getElem?_eq_getElem hk), ha]
    rfl

namespace Serves

variable {r : Registry} {name : String} {o : Except LoadFault Grammar} {status : CallStatus}
  {grammars : Table Grammar} {effects : List Effect} (h : Serves r name o status grammars effects)

include h

theorem of_registered {g : Grammar} (registered : r.grammars.get? name = some g) :
    status = .returned ∧ grammars = r.grammars ∧ effects = [.log (.alreadyLoaded name)] := by
  cases h with
  | present => exact ⟨rfl, rfl, rfl⟩
  | asked unregistered =>
    rw [registered] at unregistered
    cases unregistered

theorem of_unregistered (unregistered : r.grammars.get? name = none) :
    status = statusOf o ∧ grammars = r.grammarsAfter name o ∧
      effects = [.load name, .log (endNotice name o)] := by
  cases h with
  | present registered =>
    rw [registered] at unregistered
    cases unregistered
  | asked => exact ⟨rfl, rfl, rfl⟩

end Serves

end Registry

namespace Action

variable {name : String} {s : State}

theorem load_serves (normal : Language.normalize name = name)
    (ended : ∀ k < s.index.registry.attempts.length, (s.index.registry.outcome? k).isSome = true)
    (free : s.index.registry.grammars.get? name = none → s.index.registry.pending.get? name = none)
    (setup : Setup) :
    ∃ status, s.index.registry.Serves name (answerOf setup s name) status
        (load name setup s).state.index.registry.grammars (load name setup s).effects ∧
      (load name setup s).result = loadResult name status := by
  obtain ⟨k, status, hc, served⟩ := Registry.call_serves ended normal free (answerOf setup s)
  obtain ⟨hresult, hregistry, heffects⟩ := load_run hc
  refine ⟨status, ?_, hresult⟩
  rw [hregistry, heffects]
  exact served

/-- A load of a name that is registered returns and changes no grammar. -/
theorem load_registered (normal : Language.normalize name = name)
    (ended : ∀ k < s.index.registry.attempts.length, (s.index.registry.outcome? k).isSome = true)
    {g : Grammar} (registered : s.index.registry.grammars.get? name = some g) (setup : Setup) :
    (load name setup s).result = .ok () ∧
      (load name setup s).state.index.registry.grammars = s.index.registry.grammars := by
  have free : s.index.registry.grammars.get? name = none →
      s.index.registry.pending.get? name = none := by
    rw [registered]
    exact nofun
  obtain ⟨status, served, hresult⟩ := load_serves normal ended free setup
  obtain ⟨rfl, hgrammars, -⟩ := served.of_registered registered
  exact ⟨hresult, hgrammars⟩

end Action
end CodeIndex
