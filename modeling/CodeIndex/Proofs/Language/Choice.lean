import CodeIndex.Proofs.Language.Name

/-!
# CodeIndex.Proofs.Language.Choice

Which language is chosen for a file, and when none is.

* `Chosen`: a language that is named comes first, and an empty name counts as none.
* `choose_eq_ok_iff`, `choose_eq_error_iff`: `choose` decides this.
-/

namespace CodeIndex
namespace Language

/-- No language is named. -/
def Unnamed (named : Option String) : Prop := named = none ∨ named = some ""

inductive Chosen (named : Option String) (file : String) : String → Prop where
  | named {name : String} (given : named = some name) (nonempty : name ≠ "") :
      Chosen named file (normalize name)
  | suffix {name : String} (unnamed : Unnamed named)
      (mapped : suffixes.get? (suffixOf file) = some name) : Chosen named file name

variable {named : Option String} {file : String}

theorem choose_unnamed (h : Unnamed named) : choose named file = detect file := by
  rcases h with rfl | rfl
  · rw [choose]
  · rw [choose, if_pos rfl]

theorem choose_named {name : String} (h : name ≠ "") :
    choose (some name) file = .ok (normalize name) := by
  rw [choose, if_neg h]

theorem detect_eq_ok_iff {name : String} :
    detect file = .ok name ↔ suffixes.get? (suffixOf file) = some name := by
  unfold detect
  cases suffixes.get? (suffixOf file) <;> simp

theorem detect_eq_error_iff {suffix : String} :
    detect file = .error suffix ↔ suffix = suffixOf file ∧ suffixes.get? (suffixOf file) = none := by
  unfold detect
  cases suffixes.get? (suffixOf file) <;> simp [eq_comm]

theorem unnamed_or_named (named : Option String) :
    Unnamed named ∨ ∃ name, named = some name ∧ name ≠ "" := by
  cases named with
  | none => exact .inl (.inl rfl)
  | some name =>
    by_cases h : name = ""
    · exact .inl (.inr (congrArg some h))
    · exact .inr ⟨name, rfl, h⟩

theorem not_unnamed {name : String} (h : name ≠ "") : ¬Unnamed (some name) := by
  rintro (hn | hn)
  · cases hn
  · exact h (Option.some.inj hn)

theorem choose_eq_ok_iff {name : String} : choose named file = .ok name ↔ Chosen named file name := by
  rcases unnamed_or_named named with unnamed | ⟨given, rfl, nonempty⟩
  · rw [choose_unnamed unnamed, detect_eq_ok_iff]
    constructor
    · exact .suffix unnamed
    · intro h
      cases h with
      | named given nonempty =>
        subst given
        exact absurd unnamed (not_unnamed nonempty)
      | suffix _ mapped => exact mapped
  · rw [choose_named nonempty]
    constructor
    · intro h
      rw [← Except.ok.inj h]
      exact .named rfl nonempty
    · intro h
      cases h with
      | named given _ =>
        cases given
        rfl
      | suffix unnamed _ => exact absurd unnamed (not_unnamed nonempty)

theorem choose_eq_error_iff {suffix : String} :
    choose named file = .error suffix ↔
      Unnamed named ∧ suffix = suffixOf file ∧ suffixes.get? (suffixOf file) = none := by
  rcases unnamed_or_named named with unnamed | ⟨given, rfl, nonempty⟩
  · rw [choose_unnamed unnamed, detect_eq_error_iff]
    simp [unnamed]
  · rw [choose_named nonempty]
    simp [not_unnamed nonempty]

end Language
end CodeIndex
