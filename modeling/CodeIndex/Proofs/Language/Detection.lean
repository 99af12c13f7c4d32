import CodeIndex.Proofs.Language.Choice
import CodeIndex.Proofs.Path.Name
import CodeIndex.Proofs.Text.Caseless

/-!
# CodeIndex.Proofs.Language.Detection

What of a path decides its language.

* `detect_eq_ok_iff_hasSuffix`, `detect_eq_error_iff_hasSuffix`: the last component from its last dot on, in
  lower case.
* `detect_canonical`: the id of a file has the language of the path, if this ends with a name.
* `detect_caseless`: the case of letters does not matter.
-/

namespace CodeIndex

namespace Path

/-- The last component is there and does not lead upwards. -/
def Named (path : String) : Prop := ∃ name, Names path name ∧ name ≠ ['.', '.']

/-! ## Paths without regard to case -/

theorem slash_of_mem_foldChar {c : Char} (h : '/' ∈ foldChar c) : c = '/' := by
  rw [foldChar_of_mem h (by decide), List.mem_singleton] at h
  exact h.symm

theorem segments_caseless (path : List Char) : segments (caseless path) = (segments path).map caseless := by
  induction path with
  | nil => rfl
  | cons c path ih =>
    rw [caseless_cons, segments]
    split
    · rename_i hslash
      subst hslash
      rw [show foldChar '/' = ['/'] by decide, List.singleton_append, segments, if_pos rfl, ih]
      rfl
    · rename_i hslash
      rw [segments_append_of_no_slash fun h => hslash (slash_of_mem_foldChar h), ih]
      cases hs : segments path with
      | nil => exact absurd hs (segments_ne_nil path)
      | cons s rest => rfl

theorem caseless_eq_dot {name : List Char} : caseless name = ['.'] ↔ name = ['.'] := by
  constructor
  · intro h
    rw [← h, caseless_of_low]
    rw [h, List.forall_mem_singleton]
    decide
  · rintro rfl
    decide

theorem components_caseless (path : List Char) :
    components (caseless path) = (components path).map caseless := by
  rw [components, components, segments_caseless, List.filter_map]
  congr 1
  refine List.filter_congr fun c _ => ?_
  simp [caseless_eq_nil, caseless_eq_dot]

theorem dot_mem_caseless {name : List Char} : '.' ∈ caseless name ↔ '.' ∈ name := by
  constructor
  · exact fun h => mem_caseless_of_low h (by decide)
  · exact fun h => List.mem_flatMap.mpr ⟨'.', h, by decide⟩

theorem suffix_caseless (name : List Char) : suffix (caseless name) = caseless (suffix name) := by
  rcases dot_cases name with none | ⟨front, after, rfl, hafter⟩
  · rw [suffix_of_no_dot none, suffix_of_no_dot (mt dot_mem_caseless.mp none)]
    rfl
  · have dot : caseless ('.' :: after) = '.' :: caseless after := by
      rw [caseless_cons, show foldChar '.' = ['.'] by decide, List.singleton_append]
    rw [caseless_append, dot, suffix_append_dot (mt dot_mem_caseless.mp hafter), suffix_append_dot hafter]
    simp only [ne_eq, caseless_eq_nil]
    split
    · exact dot.symm
    · rfl

end Path

namespace Language

/-- The suffix of a file that is looked up, if there is a proper one. -/
theorem suffixOf_of_hasSuffix {path : String} {suffix : List Char} (h : Path.HasSuffix path suffix) :
    suffixOf path = String.ofList (lower suffix) := by
  rw [suffixOf, (Path.hasSuffix_iff.mp h).2]

theorem suffixOf_eq_empty {path : String} (h : ∀ suffix, ¬Path.HasSuffix path suffix) :
    suffixOf path = "" := by
  have none : Path.suffix (Path.fileName path) = [] :=
    Decidable.byContradiction fun hne => h _ (Path.hasSuffix_iff.mpr ⟨hne, rfl⟩)
  rw [suffixOf, none]
  rfl

theorem hasSuffix_or (path : String) :
    (∃ suffix, Path.HasSuffix path suffix) ∨ ∀ suffix, ¬Path.HasSuffix path suffix := by
  rw [← not_exists]
  exact Classical.em _

theorem get?_empty : suffixes.get? "" = none := by decide

theorem detect_eq_ok_iff_hasSuffix {path language : String} :
    detect path = .ok language ↔ ∃ suffix, Path.HasSuffix path suffix ∧
      suffixes.get? (String.ofList (lower suffix)) = some language := by
  rw [detect_eq_ok_iff]
  constructor
  · intro h
    rcases hasSuffix_or path with ⟨suffix, has⟩ | none
    · exact ⟨suffix, has, suffixOf_of_hasSuffix has ▸ h⟩
    · rw [suffixOf_eq_empty none, get?_empty] at h
      cases h
  · rintro ⟨suffix, has, h⟩
    rwa [suffixOf_of_hasSuffix has]

theorem detect_eq_error_iff_hasSuffix {path extension : String} :
    detect path = .error extension ↔
      (∃ suffix, Path.HasSuffix path suffix ∧ extension = String.ofList (lower suffix) ∧
        suffixes.get? extension = none) ∨
      (∀ suffix, ¬Path.HasSuffix path suffix) ∧ extension = "" := by
  rw [detect_eq_error_iff]
  constructor
  · rintro ⟨rfl, unknown⟩
    rcases hasSuffix_or path with ⟨suffix, has⟩ | none
    · exact .inl ⟨suffix, has, suffixOf_of_hasSuffix has, unknown⟩
    · exact .inr ⟨none, suffixOf_eq_empty none⟩
  · rintro (⟨suffix, has, rfl, unknown⟩ | ⟨none, rfl⟩)
    · rw [suffixOf_of_hasSuffix has]
      exact ⟨rfl, unknown⟩
    · rw [suffixOf_eq_empty none]
      exact ⟨rfl, get?_empty⟩

/-! ## Spellings -/

theorem detect_of_fileName {path other : String} (h : Path.fileName path = Path.fileName other) :
    detect path = detect other := by
  rw [detect, detect, suffixOf, suffixOf, h]

theorem detect_canonical {path : String} (h : Path.Named path) (directory : String) :
    detect (Path.canonical directory path) = detect path := by
  obtain ⟨name, names, hdots⟩ := h
  exact detect_of_fileName (Path.fileName_canonical names hdots directory)

theorem choose_canonical {path : String} (h : Path.Named path) (directory : String) (named : Option String) :
    choose named (Path.canonical directory path) = choose named path := by
  unfold choose
  rw [detect_canonical h]

theorem choose_iff_of_detect {path other language : String} (named : Option String)
    (h : detect path = .ok language ↔ detect other = .ok language) :
    choose named path = .ok language ↔ choose named other = .ok language := by
  rcases unnamed_or_named named with unnamed | ⟨name, rfl, nonempty⟩
  · rw [choose_unnamed unnamed, choose_unnamed unnamed, h]
  · rw [choose_named nonempty, choose_named nonempty]

theorem suffixes_no_sigma : ∀ p ∈ suffixes, 'σ' ∉ p.1.toList ∧ 'ς' ∉ p.1.toList := by
  decide +kernel

/-- A suffix of the table has no sigma, and so its characters can be lowered each by itself. -/
theorem get?_lower {suffix : List Char} {language : String} :
    suffixes.get? (String.ofList (lower suffix)) = some language ↔
      suffixes.get? (String.ofList (caseless suffix)) = some language := by
  have plain : ∀ key : List Char, suffixes.get? (String.ofList key) = some language →
      (lower suffix = key ↔ caseless suffix = key) := by
    intro key h
    have clean := suffixes_no_sigma _ (Table.mem_of_get? h)
    rw [String.toList_ofList] at clean
    exact lower_eq_iff_caseless clean.1 clean.2
  constructor
  · intro h
    rwa [(plain _ h).mp rfl]
  · intro h
    rwa [(plain _ h).mpr rfl]

theorem fileName_caseless {path other : String} (h : caseless path.toList = caseless other.toList) :
    caseless (Path.fileName path) = caseless (Path.fileName other) := by
  have components := congrArg (fun cs => (Path.components cs).getLast?.getD []) h
  simp only [Path.components_caseless, List.getLast?_map] at components
  have last : ∀ o : Option (List Char), (o.map caseless).getD [] = caseless (o.getD []) := by
    intro o
    cases o <;> rfl
  rwa [last, last] at components

theorem detect_caseless {path other language : String} (h : caseless path.toList = caseless other.toList) :
    detect path = .ok language ↔ detect other = .ok language := by
  have same : caseless (Path.suffix (Path.fileName path)) = caseless (Path.suffix (Path.fileName other)) := by
    rw [← Path.suffix_caseless, ← Path.suffix_caseless, fileName_caseless h]
  rw [detect_eq_ok_iff, detect_eq_ok_iff, suffixOf, suffixOf, get?_lower, get?_lower, same]

end Language
end CodeIndex
