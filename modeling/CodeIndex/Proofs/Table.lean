import CodeIndex.Table
import Mathlib.Data.List.Nodup
import Mathlib.Tactic.Tauto

/-!
# CodeIndex.Proofs.Table

What a table holds and what is found in it are the same where its keys are distinct, and then the order of
its pairs does not matter.
-/

namespace CodeIndex
namespace Table

variable {α : Type} {table other : Table α} {key : String}

theorem mem_of_get? {a : α} (h : table.get? key = some a) : (key, a) ∈ table := by
  induction table with
  | nil => cases h
  | cons p table ih =>
    obtain ⟨k, b⟩ := p
    rw [get?_cons] at h
    split at h
    · rename_i hk
      cases h
      subst hk
      exact List.mem_cons_self
    · exact List.mem_cons_of_mem _ (ih h)

theorem get?_eq_none_iff : table.get? key = none ↔ key ∉ table.map Prod.fst := by
  induction table with
  | nil => simp
  | cons p table ih =>
    obtain ⟨k, b⟩ := p
    rw [get?_cons]
    by_cases hk : k = key
    · simp [hk]
    · simp [hk, ih, Ne.symm hk]

theorem mem_iff_get? (distinct : (table.map Prod.fst).Nodup) {a : α} :
    (key, a) ∈ table ↔ table.get? key = some a := by
  refine ⟨fun hm => ?_, mem_of_get?⟩
  induction table with
  | nil => cases hm
  | cons p table ih =>
    obtain ⟨k, b⟩ := p
    obtain ⟨hnew, distinct⟩ := List.nodup_cons.mp distinct
    rw [get?_cons]
    rcases List.mem_cons.mp hm with he | hm
    · cases he
      rw [if_pos rfl]
    · have hk : k ≠ key := by
        rintro rfl
        exact hnew (List.mem_map.mpr ⟨_, hm, rfl⟩)
      rw [if_neg hk]
      exact ih distinct hm

theorem mem_erase {p : String × α} : p ∈ table.erase key ↔ p ∈ table ∧ p.1 ≠ key := by
  induction table with
  | nil => simp [erase]
  | cons q table ih =>
    obtain ⟨k, b⟩ := q
    by_cases hk : k = key
    · have hp : p = (k, b) → ¬p.1 ≠ key := by
        rintro rfl
        exact not_not.mpr hk
      rw [erase, if_pos hk, ih, List.mem_cons]
      tauto
    · have hp : p = (k, b) → p.1 ≠ key := by
        rintro rfl
        exact hk
      rw [erase, if_neg hk, List.mem_cons, List.mem_cons, ih]
      tauto

/-- The order of distinct keys does not matter to the lookups. -/
theorem get?_perm (h : table.Perm other) (distinct : (table.map Prod.fst).Nodup) (key : String) :
    table.get? key = other.get? key := by
  have distinct' : (other.map Prod.fst).Nodup := (h.map Prod.fst).nodup_iff.mp distinct
  ext a
  rw [← mem_iff_get? distinct, ← mem_iff_get? distinct', h.mem_iff]

end Table
end CodeIndex
