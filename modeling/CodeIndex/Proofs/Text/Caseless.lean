import CodeIndex.Proofs.Text.Case

/-!
# CodeIndex.Proofs.Text.Caseless

Texts without regard to case.

* `caseless`: each character is small by itself, and the two small forms of sigma are one.
* `caseless_lower`: the lower case of a text differs from it in case only.
* `caseless_of_low`, `foldChar_of_mem`: no other character becomes one that stands before the small letters,
  such as a dot or a slash.
* `lower_eq_iff_caseless`: where there is no sigma, `lower` does not depend on what stands around a character.
-/

namespace CodeIndex

open CaseTable

theorem lowerRanges_target : ∀ r ∈ lowerRanges, 0x61 ≤ r.target ∧ r.misses 0x3C2 0x3C2 2 = true := by
  decide +kernel

/-! ## One character -/

/-- A sigma is small in one form only, wherever it stands. -/
def foldChar (c : Char) : List Char := if c = 'ς' then ['σ'] else lowerChar c

/-- What a character becomes in lower case, if it does not stay as it is. -/
theorem image_of_mem_lowerChar {c d : Char} (h : d ∈ lowerChar c) :
    d = c ∨ 0x61 ≤ d.toNat ∧ d ≠ 'ς' := by
  unfold lowerChar at h
  split at h
  · right
    rcases List.mem_pair.mp h with rfl | rfl
    · decide
    · decide
  · rw [List.mem_singleton] at h
    subst h
    rcases mapCase_cases c with none | ⟨r, hr, code, image, hm, hv⟩
    · exact .inl (mapCase_of_none none)
    · obtain ⟨low, misses⟩ := lowerRanges_target r hr
      have hle := (CaseRange.image?_le image).1
      rw [hm]
      refine .inr ⟨by omega, fun hfinal => ?_⟩
      have none : (⟨0x3C2, 0x3C2, 2, 0⟩ : CaseRange).image? code = Option.none :=
        CaseRange.image?_of_misses misses image
      rw [← hv, hfinal] at none
      cases none

theorem foldChar_lowerChar (c : Char) : (lowerChar c).flatMap foldChar = foldChar c := by
  by_cases hfinal : c = 'ς'
  · subst hfinal
    decide
  by_cases hsigma : c = 'Σ'
  · subst hsigma
    decide
  have low := lowers_lowerChar hsigma
  have kept : ∀ d ∈ lowerChar c, foldChar d = [d] := by
    intro d hd
    have small : d ≠ 'ς' := by
      rcases image_of_mem_lowerChar hd with rfl | image
      · exact hfinal
      · exact image.2
    rw [foldChar, if_neg small, (low.low d hd).2]
  rw [List.flatMap_congr kept, List.flatMap_singleton', foldChar, if_neg hfinal]

/-- A character that stands before the small letters comes from itself only. -/
theorem foldChar_of_mem {c d : Char} (h : d ∈ foldChar c) (low : d.toNat < 0x61) : foldChar c = [c] := by
  unfold foldChar at h ⊢
  split at h
  · rw [List.mem_singleton.mp h] at low
    exact absurd low (by decide)
  · rename_i hfinal
    rcases image_of_mem_lowerChar h with rfl | image
    · rw [if_neg hfinal]
      unfold lowerChar at h ⊢
      split at h
      · rename_i dotted
        rw [dotted] at low
        exact absurd low (by decide)
      · rename_i dotted
        rw [List.mem_singleton] at h
        rw [if_neg dotted, ← h]
    · exact absurd low (by omega)

theorem foldChar_ne_nil (c : Char) : foldChar c ≠ [] := by
  unfold foldChar lowerChar
  split
  · simp
  · split
    · simp
    · simp

/-! ## Texts -/

def caseless (text : List Char) : List Char := text.flatMap foldChar

theorem caseless_cons (c : Char) (text : List Char) :
    caseless (c :: text) = foldChar c ++ caseless text := rfl

theorem caseless_append (text more : List Char) : caseless (text ++ more) = caseless text ++ caseless more :=
  List.flatMap_append

theorem caseless_eq_nil {text : List Char} : caseless text = [] ↔ text = [] := by
  cases text with
  | nil => exact Iff.rfl
  | cons c text => simp [caseless_cons, foldChar_ne_nil]

theorem caseless_lowerFrom (text : List Char) :
    ∀ before, caseless (lowerFrom before text) = caseless text := by
  induction text with
  | nil =>
    intro before
    rfl
  | cons c after ih =>
    intro before
    rw [lowerFrom, caseless_append, ih, caseless_cons]
    congr 1
    split_ifs with hsigma
    · subst hsigma
      decide
    · subst hsigma
      decide
    · exact foldChar_lowerChar c

theorem caseless_lower (text : List Char) : caseless (lower text) = caseless text :=
  caseless_lowerFrom text []

theorem caseless_of_low {text : List Char} (h : ∀ d ∈ caseless text, d.toNat < 0x61) :
    caseless text = text := by
  induction text with
  | nil => rfl
  | cons c text ih =>
    rw [caseless_cons, List.forall_mem_append] at h
    obtain ⟨d, hd⟩ := List.exists_mem_of_ne_nil _ (foldChar_ne_nil c)
    rw [caseless_cons, foldChar_of_mem hd (h.1 d hd), ih h.2]
    rfl

theorem mem_caseless_of_low {text : List Char} {d : Char} (h : d ∈ caseless text) (low : d.toNat < 0x61) :
    d ∈ text := by
  obtain ⟨c, hc, hd⟩ := List.mem_flatMap.mp h
  rw [foldChar_of_mem hd low, List.mem_singleton] at hd
  rwa [hd]

theorem lowerFrom_eq_caseless {text : List Char} (h : 'σ' ∉ caseless text) :
    ∀ before, lowerFrom before text = caseless text := by
  induction text with
  | nil =>
    intro before
    rfl
  | cons c after ih =>
    intro before
    rw [caseless_cons, List.mem_append, not_or] at h
    obtain ⟨hc, hafter⟩ := h
    have sigma : c ≠ 'Σ' := by
      rintro rfl
      exact hc (by decide)
    have final : c ≠ 'ς' := by
      rintro rfl
      exact hc (by decide)
    rw [lowerFrom, if_neg sigma, ih hafter, caseless_cons, foldChar, if_neg final]

theorem caseless_lower_eq_lower {text : List Char} (h : 'ς' ∉ lower text) :
    caseless (lower text) = lower text := by
  have kept : ∀ d ∈ lower text, foldChar d = [d] := by
    intro d hd
    have final : d ≠ 'ς' := fun hf => h (hf ▸ hd)
    rw [foldChar, if_neg final, (isLowered_of_mem_lower hd).2]
  rw [caseless, List.flatMap_congr kept, List.flatMap_singleton']

theorem lower_eq_iff_caseless {text key : List Char} (sigma : 'σ' ∉ key) (final : 'ς' ∉ key) :
    lower text = key ↔ caseless text = key := by
  constructor
  · rintro rfl
    rw [← caseless_lower, caseless_lower_eq_lower final]
  · rintro rfl
    exact lowerFrom_eq_caseless sigma []

end CodeIndex
