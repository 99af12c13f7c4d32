import CodeIndex.Proofs.Registry.LoadOnce
import CodeIndex.Proofs.Registry.Settling

/-!
# CodeIndex.Proofs.Registry.Answer

The answers of calls. A call that is over and was not cancelled has returned, and then its name is
registered, or it has raised: `Coherent.answer`. Settling gives all such calls an answer, whatever is
under way before.
-/

namespace CodeIndex
namespace Registry

variable {r : Registry}

/-- A call comes last, under the normal form of its language, and it is not cancelled. -/
theorem call_added (r : Registry) (language : String) :
    ∃ c, (r.call language).1.calls = r.calls ++ [c] ∧ c.name = Language.normalize language ∧
      c.status.isUncancelled = true := by
  have h := step_does r (.call language)
  change Does r (.call language) (r.call language).1 (r.call language).2 at h
  generalize (r.call language).1 = r' at h ⊢
  generalize (r.call language).2 = effects at h
  cases h with
  | idle uncalled => cases uncalled
  | present named => exact ⟨_, rfl, named.symm, rfl⟩
  | joined named => exact ⟨_, rfl, named.symm, rfl⟩
  | @answered _ name k outcome named =>
    refine ⟨⟨name, some k, statusOf outcome⟩, by simp, named.symm, ?_⟩
    cases outcome <;> rfl
  | scheduled named => exact ⟨_, rfl, named.symm, rfl⟩

theorem Coherent.answer (h : Coherent r) {c : LoadCall} (hc : c ∈ r.calls)
    (ended : c.status.isOver = true) (uncancelled : c.status.isUncancelled = true) :
    (c.status = .returned ∧ ∃ g, r.grammars.get? c.name = some g) ∨
      ∃ fault, c.status = .raised fault := by
  cases hs : c.status with
  | returned => exact .inl ⟨rfl, h.registered_of_returned hc hs⟩
  | raised fault => exact .inr ⟨fault, rfl⟩
  | waiting | cancelling =>
    rw [hs] at ended
    cases ended
  | cancelled =>
    rw [hs] at uncancelled
    cases uncancelled

theorem cancel_not_mem_settleEvents (loader : String → Except LoadFault Grammar) (r : Registry)
    (i : Nat) : .cancel i ∉ r.settleEvents loader := by
  simp [settleEvents]

/-- A call that is not cancelled has an answer after settling. -/
theorem Coherent.settle_answers (h : Coherent r) (loader : String → Except LoadFault Grammar)
    {i : Nat} {c : LoadCall} (hi : r.calls[i]? = some c)
    (uncancelled : c.status.isUncancelled = true) :
    ∃ s, (r.settle loader).1.calls[i]? = some { c with status := s } ∧
      ((s = .returned ∧ ∃ g, (r.settle loader).1.grammars.get? c.name = some g) ∨
        ∃ fault, s = .raised fault) := by
  obtain ⟨coherent, settled⟩ := h.settled_settle loader
  obtain ⟨s, hs, next⟩ := call_run hi (r.settleEvents loader)
  change (r.settle loader).1.calls[i]? = some { c with status := s } at hs
  have hm := List.mem_of_getElem? hs
  have hu := next.uncancelled uncancelled (cancel_not_mem_settleEvents loader r i)
  exact ⟨s, hs, coherent.answer hm (settled.call i _ hs) hu⟩

end Registry
end CodeIndex
