import CodeIndex.Text.Space

/-!
# CodeIndex.Proofs.Text.Newline

What normalizing line ends does, as a relation with one rule for each kind of line end.

* `translates_iff`: `normalize` is this relation.
* `normalize_of_not_mem`: a text without carriage returns stays, and so does one that is normalized.
-/

namespace CodeIndex
namespace Newline

inductive Translates : List Char → List Char → Prop where
  | nil : Translates [] []
  /-- A carriage return with the line feed after it. -/
  | pair {s t : List Char} (rest : Translates s t) : Translates ('\r' :: '\n' :: s) ('\n' :: t)
  /-- A carriage return alone. -/
  | lone {s t : List Char} (alone : s.head? ≠ some '\n') (rest : Translates s t) :
      Translates ('\r' :: s) ('\n' :: t)
  | other {c : Char} {s t : List Char} (hc : c ≠ '\r') (rest : Translates s t) :
      Translates (c :: s) (c :: t)

theorem translates_normalize (s : List Char) : Translates s (normalize s) := by
  fun_induction normalize s with
  | case1 => exact .nil
  | case2 s ih => exact .pair ih
  | case3 c s unpaired ih =>
    split
    · rename_i hc
      subst hc
      refine .lone (fun hs => ?_) ih
      obtain ⟨rest, rfl⟩ := List.head?_eq_some_iff.mp hs
      exact unpaired rest rfl rfl
    · rename_i hc
      exact .other hc ih

/-- At each place one rule applies. -/
theorem Translates.eq_normalize {s t : List Char} (h : Translates s t) : t = normalize s := by
  induction h with
  | nil => rfl
  | pair _ ih => rw [normalize, ih]
  | @lone s t alone _ ih =>
    have unpaired : ∀ rest, s ≠ '\n' :: rest := by
      rintro rest rfl
      exact alone rfl
    rw [normalize, ih, if_pos rfl]
    exact fun rest _ hs => unpaired rest hs
  | other hc _ ih =>
    rw [normalize, ih, if_neg hc]
    exact fun rest hr _ => hc hr

theorem translates_iff {s t : List Char} : Translates s t ↔ t = normalize s := by
  constructor
  · exact Translates.eq_normalize
  · rintro rfl
    exact translates_normalize s

theorem Translates.not_mem {s t : List Char} (h : Translates s t) : '\r' ∉ t := by
  rw [h.eq_normalize]
  exact not_mem_normalize s

theorem translates_self {s : List Char} (h : '\r' ∉ s) : Translates s s := by
  induction s with
  | nil => exact .nil
  | cons c s ih =>
    rw [List.mem_cons, not_or] at h
    exact .other (Ne.symm h.1) (ih h.2)

theorem normalize_of_not_mem {s : List Char} (h : '\r' ∉ s) : normalize s = s :=
  (translates_self h).eq_normalize.symm

end Newline
end CodeIndex
