import CodeIndex.Proofs.Language.Name
import CodeIndex.Proofs.Text.Padding

/-!
# CodeIndex.Proofs.Language.NormalForm

Spellings of one language. Neither blanks around a name nor capital letters in it make a difference to its
normal form, whatever characters it is made of.

* `fold_between`, `fold_lower`: what is folded away.
* `normalize_between`, `normalize_lower`: the same for normal forms.
* `normalize_key`: an alias has the normal form that the table gives.
-/

namespace CodeIndex
namespace Language

theorem fold_between {left right : String} (hl : IsPadding left.toList) (hr : IsPadding right.toList)
    (name : String) : fold (left ++ name ++ right) = fold name := by
  rw [fold, String.toList_append, String.toList_append, trim_between hl hr, fold]

theorem fold_lower (name : String) : fold (String.ofList (lower name.toList)) = fold name := by
  rw [fold, String.toList_ofList, trim_lower, lower_lower, fold]

/-- The normal form hangs on the folded name alone. -/
theorem normalize_eq_of_fold {a b : String} (h : fold a = fold b) : normalize a = normalize b := by
  rw [normalize, normalize, h]

theorem normalize_between {left right : String} (hl : IsPadding left.toList)
    (hr : IsPadding right.toList) (name : String) :
    normalize (left ++ name ++ right) = normalize name :=
  normalize_eq_of_fold (fold_between hl hr name)

/-- A sigma at the end of a name is final before a blank too. -/
example : normalize "\u2003ΟΔΟΣ\n" = "οδος" := by
  decide +kernel

theorem normalize_lower (name : String) :
    normalize (String.ofList (lower name.toList)) = normalize name :=
  normalize_eq_of_fold (fold_lower name)

theorem normalize_key {key image : String} (h : (key, image) ∈ aliases) : normalize key = image := by
  have all : ∀ p ∈ aliases, normalize p.1 = p.2 := by
    decide +kernel
  exact all (key, image) h

end Language
end CodeIndex
