import CodeIndex.Proofs.Text.Case

/-!
# CodeIndex.Proofs.Text.Padding

Texts between blanks.

* `meetsCased_append`: a blank ends a word, so that a sigma does not see what stands behind it.
* `lower_between`: in lower case a text is the same with blanks around it as without, and the blanks stay.
* `trim_between`, `between_trim`: trimming takes away the blanks around a text and nothing else.
* `trim_lower`: trimming and lowering may change places.
-/

namespace CodeIndex

open CaseTable

/-- Nothing but blanks. -/
def IsPadding (text : List Char) : Prop := ∀ c ∈ text, isBlank c = true

theorem IsPadding.reverse {text : List Char} (h : IsPadding text) : IsPadding text.reverse :=
  fun c hc => h c (List.mem_reverse.mp hc)

/-! ## One blank -/

theorem inRanges_of_blank {ranges : List (Nat × Nat)}
    (apart : ∀ r ∈ ranges, ∀ b ∈ blankRanges, r.2 < b.1 ∨ b.2 < r.1) {c : Char}
    (h : isBlank c = true) : inRanges ranges c.toNat = false := by
  obtain ⟨b, hb, low, high⟩ := (isBlank_iff c).mp h
  rw [inRanges, List.any_eq_false]
  intro r hr held
  rw [Bool.and_eq_true, decide_eq_true_eq, decide_eq_true_eq] at held
  have hapart := apart r hr b hb
  omega

theorem isCased_of_blank {c : Char} (h : isBlank c = true) : isCased c = false :=
  inRanges_of_blank (by decide +kernel) h

theorem isCaseIgnorable_of_blank {c : Char} (h : isBlank c = true) : isCaseIgnorable c = false :=
  inRanges_of_blank (by decide +kernel) h

theorem isLowered_of_blank {c : Char} (h : isBlank c = true) : IsLowered c := by
  refine isLowered_of_none ?_ ?_ fun r hr => ?_
  · rintro rfl
    exact absurd h (by decide)
  · rintro rfl
    exact absurd h (by decide)
  · obtain ⟨b, hb, low, high⟩ := (isBlank_iff c).mp h
    obtain ⟨-, apart⟩ := lowerRanges_miss_blank r hr b hb
    rw [CaseRange.image?, if_neg (by omega)]

/-! ## Lower case -/

section Padding

variable {left right : List Char}

theorem meetsCased_append (h : IsPadding right) (text : List Char) :
    meetsCased (text ++ right) = meetsCased text := by
  induction text with
  | nil =>
    cases right with
    | nil => rfl
    | cons c right =>
      have blank := h c List.mem_cons_self
      simp [meetsCased, isCaseIgnorable_of_blank blank, isCased_of_blank blank]
  | cons c text ih =>
    unfold meetsCased at ih ⊢
    rw [List.cons_append, List.dropWhile_cons, List.dropWhile_cons]
    cases isCaseIgnorable c with
    | true => exact ih
    | false => rfl

/-- What is lower case already is passed over. -/
theorem lowerFrom_append_of_isLowered (h : ∀ c ∈ left, IsLowered c) (text : List Char) :
    ∀ before, lowerFrom before (left ++ text) = left ++ lowerFrom (left.reverse ++ before) text := by
  induction left with
  | nil =>
    intro before
    rfl
  | cons c left ih =>
    intro before
    obtain ⟨sigma, low⟩ := h c List.mem_cons_self
    rw [List.cons_append, lowerFrom, if_neg sigma, low, ih fun d hd => h d (List.mem_cons_of_mem c hd)]
    simp

theorem lowerFrom_before_padding (h : IsPadding left) (text : List Char) :
    ∀ before, lowerFrom (before ++ left) text = lowerFrom before text := by
  induction text with
  | nil =>
    intro before
    rfl
  | cons c after ih =>
    intro before
    rw [lowerFrom, lowerFrom, endsWord, endsWord, meetsCased_append h, ← List.cons_append, ih]

theorem lowerFrom_padding (h : IsPadding right) (text : List Char) :
    ∀ before, lowerFrom before (text ++ right) = lowerFrom before text ++ right := by
  induction text with
  | nil => exact lowerFrom_of_isLowered fun c hc => isLowered_of_blank (h c hc)
  | cons c after ih =>
    intro before
    rw [List.cons_append, lowerFrom, lowerFrom, endsWord, endsWord, meetsCased_append h, ih,
      List.append_assoc]

theorem lower_between (hl : IsPadding left) (hr : IsPadding right) (text : List Char) :
    lower (left ++ text ++ right) = left ++ lower text ++ right := by
  have low : ∀ c ∈ left, IsLowered c := fun c hc => isLowered_of_blank (hl c hc)
  rw [lower, lowerFrom_padding hr, lowerFrom_append_of_isLowered low, List.append_nil,
    ← List.nil_append left.reverse, lowerFrom_before_padding hl.reverse, lower]

/-! ## Trimming -/

theorem trim_between (hl : IsPadding left) (hr : IsPadding right) (text : List Char) :
    trim (left ++ text ++ right) = trim text := by
  rw [trim, trim, List.append_assoc, List.dropWhile_append_of_pos hl, List.dropWhile_append]
  split
  · -- nothing is left of the text itself
    rename_i empty
    rw [List.isEmpty_iff.mp empty, ← List.append_nil right, List.dropWhile_append_of_pos hr]
    rfl
  · rw [List.reverse_append, List.dropWhile_append_of_pos hr.reverse]

end Padding

theorem between_trim (text : List Char) :
    ∃ left right, IsPadding left ∧ IsPadding right ∧ left ++ trim text ++ right = text := by
  have blank : ∀ more : List Char, IsPadding (more.takeWhile isBlank) := fun _ =>
    List.all_eq_true.mp List.all_takeWhile
  refine ⟨text.takeWhile isBlank, (((text.dropWhile isBlank).reverse).takeWhile isBlank).reverse,
    blank text, (blank _).reverse, ?_⟩
  rw [trim, List.append_assoc, ← List.reverse_append, List.takeWhile_append_dropWhile,
    List.reverse_reverse, List.takeWhile_append_dropWhile]

theorem trim_lower (text : List Char) : trim (lower text) = lower (trim text) := by
  obtain ⟨left, right, hl, hr, between⟩ := between_trim text
  calc trim (lower text)
    _ = trim (lower (left ++ trim text ++ right)) := by rw [between]
    _ = trim (left ++ lower (trim text) ++ right) := by rw [lower_between hl hr]
    _ = trim (lower (trim text)) := trim_between hl hr _
    _ = lower (trim text) := trim_lower_trim text

end CodeIndex
