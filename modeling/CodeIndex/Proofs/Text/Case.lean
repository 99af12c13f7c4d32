import CodeIndex.Text.Case
import CodeIndex.Text.Space
import Mathlib.Data.List.Forall2
import Mathlib.Tactic.SplitIfs

/-!
# CodeIndex.Proofs.Text.Case

What lower case leaves to itself.

* `CaseRange.misses`: a test on two ranges that no image of the one is in the other. The table passes
  it for all pairs of ranges (`lowerRanges_miss`), and so no image has an image of its own.
* `Lowers c image`: what a character may become. It keeps being blank or not, and all that it becomes is
  its own lower case.
* `lowers_lowerFrom`: the lower case of a text, character by character.
* `lower_lower`, `trim_lower_trim`: lowering twice, and trimming what has been trimmed and lowered.
-/

namespace CodeIndex

namespace CaseTable

namespace CaseRange

/-- No image of a character of the range is `first`, `first + step`, …, `last`: they all come before or
after these, or they are at odd distances where the steps are even. -/
def misses (r : CaseRange) (first last step : Nat) : Bool :=
  -- the table is checked in pairs, for which comparisons by instances are too slow
  Nat.blt (r.target + (r.last - r.first)) first || Nat.blt last r.target ||
    ((Nat.beq r.step 2 || Nat.beq r.first r.last) && Nat.beq step 2 &&
      Nat.beq ((r.target + first) % 2) 1)

/-- All images are characters. -/
def valid (r : CaseRange) : Bool :=
  r.target + (r.last - r.first) < 0xD800 ||
    (0xDFFF < r.target && r.target + (r.last - r.first) < 0x110000)

variable {r : CaseRange} {code image : Nat}

theorem image?_eq_some (h : r.image? code = some image) :
    r.first ≤ code ∧ code ≤ r.last ∧ (code - r.first) % r.step = 0 ∧
      image = r.target + (code - r.first) := by
  unfold image? at h
  split at h
  · rename_i hc
    cases h
    exact ⟨hc.1, hc.2.1, hc.2.2, rfl⟩
  · cases h

theorem image?_le (h : r.image? code = some image) :
    r.target ≤ image ∧ image ≤ r.target + (r.last - r.first) := by
  obtain ⟨hfirst, hlast, -, rfl⟩ := image?_eq_some h
  omega

theorem image?_of_misses {r' : CaseRange} (h : r.misses r'.first r'.last r'.step = true)
    (hi : r.image? code = some image) : r'.image? image = none := by
  obtain ⟨hfirst, hlast, hstep, rfl⟩ := image?_eq_some hi
  unfold image?
  rw [if_neg]
  rintro ⟨hle, hge, hmod⟩
  simp only [misses, Bool.or_eq_true, Bool.and_eq_true, Nat.blt_eq, Nat.beq_eq] at h
  rcases h with (h | h) | ⟨⟨htwo | hone, hstep'⟩, hodd⟩
  · omega
  · omega
  · rw [htwo] at hstep
    rw [hstep'] at hmod
    omega
  · rw [hstep'] at hmod
    omega

theorem isValidChar_of_valid (h : r.valid = true) (hi : r.image? code = some image) :
    image.isValidChar := by
  obtain ⟨hlow, hhigh⟩ := image?_le hi
  simp only [valid, Bool.or_eq_true, Bool.and_eq_true, decide_eq_true_eq] at h
  rcases h with h | h
  · exact .inl (by omega)
  · exact .inr (by omega)

end CaseRange

/-- The code points of blank characters. -/
def blankRanges : List (Nat × Nat) := [
  (0x09, 0x0D), (0x1C, 0x20), (0x85, 0x85), (0xA0, 0xA0), (0x1680, 0x1680), (0x2000, 0x200A),
  (0x2028, 0x2028), (0x2029, 0x2029), (0x202F, 0x202F), (0x205F, 0x205F), (0x3000, 0x3000)]

theorem isBlank_iff (c : Char) :
    isBlank c = true ↔ ∃ r ∈ blankRanges, r.1 ≤ c.toNat ∧ c.toNat ≤ r.2 := by
  simp [isBlank, blankRanges]
  omega

/-! ## The table -/

theorem lowerRanges_miss {r r' : CaseRange} (h : r ∈ lowerRanges) (h' : r' ∈ lowerRanges) :
    r.misses r'.first r'.last r'.step = true := by
  have all : (lowerRanges.all fun r => lowerRanges.all fun r' =>
      r.misses r'.first r'.last r'.step) = true := by
    decide +kernel
  exact List.all_eq_true.mp (List.all_eq_true.mp all r h) r' h'

theorem lowerRanges_valid : ∀ r ∈ lowerRanges, r.valid = true := by
  decide +kernel

theorem lowerRanges_miss_dotted : ∀ r ∈ lowerRanges, r.misses 0x130 0x130 2 = true := by
  decide +kernel

/-- Neither the characters of a range nor their images are blank. -/
theorem lowerRanges_miss_blank :
    ∀ r ∈ lowerRanges, ∀ b ∈ blankRanges,
      r.misses b.1 b.2 1 = true ∧ (r.last < b.1 ∨ b.2 < r.first) := by
  decide +kernel

theorem lowerRanges_miss_letters : ∀ r ∈ lowerRanges, r.last < 0x61 ∨ 0x7A < r.first := by
  decide +kernel

end CaseTable

open CaseTable

/-! ## One character -/

/-- The character is its own lower case. -/
def IsLowered (c : Char) : Prop := c ≠ 'Σ' ∧ lowerChar c = [c]

/-- What a character may become in lower case. -/
structure Lowers (c : Char) (image : List Char) : Prop where
  ne_nil : image ≠ []
  low : ∀ d ∈ image, IsLowered d
  blank : ∀ d ∈ image, isBlank d = isBlank c

theorem mapCase_of_none {c : Char} (h : ∀ r ∈ lowerRanges, r.image? c.toNat = none) :
    mapCase lowerRanges c = c := by
  unfold mapCase
  rw [List.findSome?_eq_none_iff.mpr h]

theorem mapCase_cases (c : Char) :
    (∀ r ∈ lowerRanges, r.image? c.toNat = none) ∨
      ∃ r ∈ lowerRanges, ∃ code, r.image? c.toNat = some code ∧
        mapCase lowerRanges c = Char.ofNat code ∧ (Char.ofNat code).toNat = code := by
  unfold mapCase
  cases hf : lowerRanges.findSome? fun r => r.image? c.toNat with
  | none => exact .inl (List.findSome?_eq_none_iff.mp hf)
  | some code =>
    obtain ⟨r, hr, hi⟩ := List.exists_of_findSome?_eq_some hf
    have hv := CaseRange.isValidChar_of_valid (lowerRanges_valid r hr) hi
    refine .inr ⟨r, hr, code, hi, rfl, ?_⟩
    rw [Char.ofNat, dif_pos hv]
    rfl

theorem isLowered_of_none {c : Char} (hs : c ≠ 'Σ') (hd : c ≠ 'İ')
    (h : ∀ r ∈ lowerRanges, r.image? c.toNat = none) : IsLowered c := by
  refine ⟨hs, ?_⟩
  rw [lowerChar, if_neg hd, mapCase_of_none h]

theorem isLowered_letter {c : Char} (ha : 'a' ≤ c) (hz : c ≤ 'z') : IsLowered c := by
  have hge : 0x61 ≤ c.toNat := ha
  have hle : c.toNat ≤ 0x7A := hz
  refine isLowered_of_none ?_ ?_ fun r hr => ?_
  · rintro rfl
    exact absurd hle (by decide)
  · rintro rfl
    exact absurd hle (by decide)
  · have hmiss := lowerRanges_miss_letters r hr
    rw [CaseRange.image?, if_neg (by omega)]

theorem isBlank_letter {c : Char} (ha : 'a' ≤ c) (hz : c ≤ 'z') : isBlank c = false := by
  have hge : 0x61 ≤ c.toNat := ha
  have hle : c.toNat ≤ 0x7A := hz
  have hapart : ∀ b ∈ blankRanges, b.2 < 0x61 ∨ 0x7A < b.1 := by decide
  rw [Bool.eq_false_iff, ne_eq, isBlank_iff]
  rintro ⟨b, hb, hlow, hhigh⟩
  have hb' := hapart b hb
  omega

/-- The images of the table are in lower case. -/
theorem isLowered_image {r : CaseRange} (hr : r ∈ lowerRanges) {code image : Nat}
    (hi : r.image? code = some image) (hv : (Char.ofNat image).toNat = image) :
    IsLowered (Char.ofNat image) := by
  have none : ∀ r' ∈ lowerRanges, r'.image? (Char.ofNat image).toNat = Option.none := by
    intro r' hr'
    rw [hv]
    exact CaseRange.image?_of_misses (lowerRanges_miss hr hr') hi
  refine isLowered_of_none ?_ ?_ none
  · intro hs
    -- the capital sigma has an image in the table
    obtain ⟨r', hr', hsigma⟩ : ∃ r' ∈ lowerRanges, (r'.image? 'Σ'.toNat).isSome = true :=
      List.any_eq_true.mp (by decide)
    rw [← hs, none r' hr'] at hsigma
    cases hsigma
  · intro hd
    have hmiss : (⟨0x130, 0x130, 2, 0⟩ : CaseRange).image? image = Option.none :=
      CaseRange.image?_of_misses (lowerRanges_miss_dotted r hr) hi
    rw [← hv, hd] at hmiss
    cases hmiss

theorem isBlank_image {r : CaseRange} (hr : r ∈ lowerRanges) {c : Char} {image : Nat}
    (hi : r.image? c.toNat = some image) (hv : (Char.ofNat image).toNat = image) :
    isBlank (Char.ofNat image) = isBlank c := by
  have hnew : isBlank (Char.ofNat image) = false := by
    rw [Bool.eq_false_iff, ne_eq, isBlank_iff, hv]
    rintro ⟨b, hb, hge, hle⟩
    obtain ⟨hlow, hhigh⟩ := CaseRange.image?_le hi
    obtain ⟨hmiss, -⟩ := lowerRanges_miss_blank r hr b hb
    simp only [CaseRange.misses, Bool.or_eq_true, Bool.and_eq_true, Nat.blt_eq, Nat.beq_eq] at hmiss
    omega
  have hold : isBlank c = false := by
    rw [Bool.eq_false_iff, ne_eq, isBlank_iff]
    rintro ⟨b, hb, hge, hle⟩
    obtain ⟨hfirst, hlast, -, -⟩ := CaseRange.image?_eq_some hi
    obtain ⟨-, hapart⟩ := lowerRanges_miss_blank r hr b hb
    omega
  rw [hnew, hold]

theorem lowers_singleton {c d : Char} (hl : IsLowered d) (hb : isBlank d = isBlank c) :
    Lowers c [d] := by
  refine ⟨by simp, ?_, ?_⟩
  · intro e he
    rwa [List.mem_singleton.mp he]
  · intro e he
    rwa [List.mem_singleton.mp he]

theorem lowers_lowerChar {c : Char} (hs : c ≠ 'Σ') : Lowers c (lowerChar c) := by
  by_cases hd : c = 'İ'
  · subst hd
    have hi : IsLowered 'i' := ⟨by decide, by decide⟩
    have hdot : IsLowered '\u0307' := ⟨by decide, by decide⟩
    have image : ∀ d ∈ lowerChar 'İ', d = 'i' ∨ d = '\u0307' := by
      intro d hm
      simpa [lowerChar] using hm
    refine ⟨by decide, ?_, ?_⟩
    · intro d hm
      rcases image d hm with rfl | rfl
      · exact hi
      · exact hdot
    · intro d hm
      rcases image d hm with rfl | rfl
      · decide
      · decide
  · rw [lowerChar, if_neg hd]
    rcases mapCase_cases c with hn | ⟨r, hr, code, hi, hm, hv⟩
    · rw [mapCase_of_none hn]
      exact lowers_singleton (isLowered_of_none hs hd hn) rfl
    · rw [hm]
      exact lowers_singleton (isLowered_image hr hi hv) (isBlank_image hr hi hv)

theorem lowers_sigma (final : Bool) : Lowers 'Σ' [if final then 'ς' else 'σ'] := by
  cases final with
  | true => exact lowers_singleton ⟨by decide, by decide⟩ (by decide)
  | false => exact lowers_singleton ⟨by decide, by decide⟩ (by decide)

/-! ## Texts -/

theorem lowers_lowerFrom (text : List Char) : ∀ before : List Char,
    ∃ images, List.Forall₂ Lowers text images ∧ lowerFrom before text = images.flatten := by
  induction text with
  | nil =>
    intro before
    exact ⟨[], .nil, rfl⟩
  | cons c after ih =>
    intro before
    obtain ⟨images, hall, hafter⟩ := ih (c :: before)
    rw [lowerFrom, hafter]
    split_ifs with hs hfinal
    · subst hs
      exact ⟨['ς'] :: images, .cons (lowers_sigma true) hall, rfl⟩
    · subst hs
      exact ⟨['σ'] :: images, .cons (lowers_sigma false) hall, rfl⟩
    · exact ⟨lowerChar c :: images, .cons (lowers_lowerChar hs) hall, rfl⟩

theorem isLowered_of_mem_flatten {text : List Char} {images : List (List Char)}
    (h : List.Forall₂ Lowers text images) {d : Char} (hd : d ∈ images.flatten) : IsLowered d := by
  induction h with
  | nil => cases hd
  | cons hc _ ih =>
    rw [List.flatten_cons, List.mem_append] at hd
    rcases hd with hd | hd
    · exact hc.low d hd
    · exact ih hd

theorem isLowered_of_mem_lower {text : List Char} {d : Char} (hd : d ∈ lower text) : IsLowered d := by
  obtain ⟨images, hall, heq⟩ := lowers_lowerFrom text []
  rw [lower, heq] at hd
  exact isLowered_of_mem_flatten hall hd

theorem lowerFrom_of_isLowered {text : List Char} (h : ∀ c ∈ text, IsLowered c) :
    ∀ before : List Char, lowerFrom before text = text := by
  induction text with
  | nil =>
    intro before
    rfl
  | cons c after ih =>
    intro before
    obtain ⟨hs, hc⟩ := h c List.mem_cons_self
    rw [lowerFrom, if_neg hs, hc, ih (fun d hd => h d (List.mem_cons_of_mem c hd))]
    rfl

theorem lower_lower (text : List Char) : lower (lower text) = lower text :=
  lowerFrom_of_isLowered (fun _ hd => isLowered_of_mem_lower hd) []

/-! ## Blanks at the ends -/

/-- There is no blank at the ends of a text. -/
structure Bare (text : List Char) : Prop where
  head : ∀ c ∈ text.head?, isBlank c = false
  last : ∀ c ∈ text.reverse.head?, isBlank c = false

theorem dropWhile_of_head {p : Char → Bool} {text : List Char}
    (h : ∀ c ∈ text.head?, p c = false) : text.dropWhile p = text := by
  cases text with
  | nil => rfl
  | cons c after => rw [List.dropWhile_cons, h c rfl, if_neg Bool.false_ne_true]

theorem head_dropWhile {p : Char → Bool} {text : List Char} {c : Char}
    (h : c ∈ (text.dropWhile p).head?) : p c = false := by
  have hnot := List.head?_dropWhile_not p text
  rw [Option.mem_def.mp h] at hnot
  exact hnot

theorem trim_of_bare {text : List Char} (h : Bare text) : trim text = text := by
  rw [trim, dropWhile_of_head h.head, dropWhile_of_head h.last, List.reverse_reverse]

theorem bare_trim (text : List Char) : Bare (trim text) := by
  constructor
  · intro c hc
    -- trimming at the end leaves the first character, if any is left
    have hsuffix := (List.dropWhile_suffix isBlank
      (l := (text.dropWhile isBlank).reverse)).reverse
    rw [List.reverse_reverse] at hsuffix
    obtain ⟨rest, hrest⟩ := hsuffix
    have hhead : c ∈ (text.dropWhile isBlank).head? := by
      rw [← hrest]
      change c ∈ (trim text ++ rest).head?
      rw [List.head?_append, Option.mem_def.mp hc]
      rfl
    exact head_dropWhile hhead
  · intro c hc
    rw [trim, List.reverse_reverse] at hc
    exact head_dropWhile hc

theorem isBlank_head_flatten {text : List Char} {images : List (List Char)}
    (h : List.Forall₂ Lowers text images) (ht : ∀ c ∈ text.head?, isBlank c = false) :
    ∀ d ∈ images.flatten.head?, isBlank d = false := by
  intro d hd
  cases h with
  | nil => cases hd
  | @cons c image after images hc _ =>
    cases himage : image with
    | nil => exact absurd himage hc.ne_nil
    | cons e image' =>
      subst himage
      rw [List.flatten_cons, List.cons_append, List.head?_cons] at hd
      cases hd
      rw [hc.blank _ List.mem_cons_self]
      exact ht c rfl

theorem Bare.lower {text : List Char} (h : Bare text) : Bare (lower text) := by
  obtain ⟨images, hall, heq⟩ := lowers_lowerFrom text []
  rw [CodeIndex.lower, heq]
  refine ⟨isBlank_head_flatten hall h.head, ?_⟩
  -- the same from the other end
  have hback : List.Forall₂ Lowers text.reverse (images.map List.reverse).reverse := by
    rw [List.forall₂_reverse_iff, List.forall₂_map_right_iff]
    refine hall.imp fun c image hc => ⟨?_, ?_, ?_⟩
    · simpa using hc.ne_nil
    · simpa using hc.low
    · simpa using hc.blank
  rw [List.reverse_flatten]
  exact isBlank_head_flatten hback h.last

theorem trim_lower_trim (text : List Char) : trim (lower (trim text)) = lower (trim text) :=
  trim_of_bare (bare_trim text).lower

end CodeIndex
