import CodeIndex.Language.Name
import CodeIndex.Proofs.Table
import CodeIndex.Proofs.Text.Case

/-!
# CodeIndex.Proofs.Language.Name

The names that languages are brought to are names of their own: `normalize_normalize`. The language that
is chosen for a file has such a name, whether it was named or found by the suffix (`choose_normal`).
-/

namespace CodeIndex

namespace Language

theorem fold_fold (name : String) : fold (fold name) = fold name := by
  simp only [fold, String.toList_ofList, trim_lower_trim, lower_lower]

theorem fold_of_letters {name : String} (h : ∀ c ∈ name.toList, 'a' ≤ c ∧ c ≤ 'z') :
    fold name = name := by
  have hlow : ∀ c ∈ name.toList, IsLowered c := by
    intro c hc
    exact isLowered_letter (h c hc).1 (h c hc).2
  have hbare : Bare name.toList := by
    constructor
    · intro c hc
      have hm := h c (List.mem_of_mem_head? hc)
      exact isBlank_letter hm.1 hm.2
    · intro c hc
      have hm := h c (List.mem_reverse.mp (List.mem_of_mem_head? hc))
      exact isBlank_letter hm.1 hm.2
  rw [fold, trim_of_bare hbare, lower, lowerFrom_of_isLowered hlow, String.ofList_toList]

theorem normalize_of_some {name image : String} (h : aliases.get? (fold name) = some image) :
    normalize name = image := by
  rw [normalize, h, Option.getD_some]

theorem normalize_of_none {name : String} (h : aliases.get? (fold name) = none) :
    normalize name = fold name := by
  rw [normalize, h, Option.getD_none]

/-- The name of a grammar is made of small letters, and it is an alias of itself. -/
theorem normalize_alias {key image : String} (h : (key, image) ∈ aliases) :
    normalize image = image := by
  have all : ∀ p ∈ aliases, (p.2.toList.all fun c => 'a' ≤ c ∧ c ≤ 'z') = true ∧
      aliases.get? p.2 = some p.2 := by
    decide +kernel
  obtain ⟨hsmall, hself⟩ := all (key, image) h
  have hletters : ∀ c ∈ image.toList, 'a' ≤ c ∧ c ≤ 'z' := by
    intro c hc
    exact of_decide_eq_true (List.all_eq_true.mp hsmall c hc)
  rw [← fold_of_letters hletters] at hself
  rw [normalize_of_some hself, fold_of_letters hletters]

theorem normalize_suffix {key image : String} (h : (key, image) ∈ suffixes) :
    normalize image = image := by
  have all : ∀ p ∈ suffixes, ∃ q ∈ aliases, q.2 = p.2 := by
    decide +kernel
  obtain ⟨q, hq, himage⟩ := all (key, image) h
  rw [← show q.2 = image from himage]
  exact normalize_alias hq

theorem normalize_normalize (name : String) : normalize (normalize name) = normalize name := by
  cases ha : aliases.get? (fold name) with
  | some image =>
    rw [normalize_of_some ha]
    exact normalize_alias (Table.mem_of_get? ha)
  | none =>
    have hfold : aliases.get? (fold (fold name)) = none := by rw [fold_fold, ha]
    rw [normalize_of_none ha, normalize_of_none hfold, fold_fold]

theorem detect_normal {path language : String} (h : detect path = .ok language) :
    normalize language = language := by
  unfold detect at h
  split at h
  · rename_i found hf
    cases h
    exact normalize_suffix (Table.mem_of_get? hf)
  · cases h

theorem choose_normal {named : Option String} {path language : String}
    (h : choose named path = .ok language) : normalize language = language := by
  cases named with
  | none =>
    rw [choose] at h
    exact detect_normal h
  | some name =>
    rw [choose] at h
    split at h
    · exact detect_normal h
    · cases h
      exact normalize_normalize name

end Language
end CodeIndex
