import CodeIndex.Proofs.Path.Spelling

/-!
# CodeIndex.Proofs.Path.Name

The last component of a path, and what follows its last dot.

* `Names`: the last component, but for empty ones and dots. `names_iff`: `fileName` gives it.
* `LastDot`, `HasSuffix`: the last dot of a name, with something on both sides of it. `hasSuffix_iff`:
  `suffix` cuts the name there.
* `names_canonical`: a file id ends with the last component of the path, unless this leads upwards.
-/

namespace CodeIndex
namespace Path

/-- The last component of a path; `..` counts as one here. -/
structure Names (path : String) (name : List Char) : Prop where
  last : ∃ before behind, path.toList.splitOn '/' = before ++ name :: behind ∧
    ∀ c ∈ behind, c = [] ∨ c = ['.']
  ne_nil : name ≠ []
  ne_dot : name ≠ ['.']

/-- The last dot of a name is at this place. -/
def LastDot (name : List Char) (place : Nat) : Prop :=
  name[place]? = some '.' ∧ ∀ later, place < later → name[later]? ≠ some '.'

/-- The last component of a path from its last dot on, which is neither its first nor its last character. -/
inductive HasSuffix (path : String) : List Char → Prop where
  | intro {name : List Char} {place : Nat} (names : Names path name) (dot : LastDot name place)
      (first : 0 < place) (last : place < name.length - 1) : HasSuffix path (name.drop place)

/-! ## The last component -/

theorem getLast?_keep {parts : List (List Char)} {name : List Char} :
    (keep parts).getLast? = some name ↔
      (∃ before behind, parts = before ++ name :: behind ∧ ∀ c ∈ behind, c = [] ∨ c = ['.']) ∧
        name ≠ [] ∧ name ≠ ['.'] := by
  have dropped : ∀ c : List Char, (!(c ≠ [] && c ≠ ['.'] : Bool)) = true ↔ c = [] ∨ c = ['.'] := by
    intro c
    by_cases hempty : c = []
    · simp [hempty]
    · simp [hempty]
  rw [keep, List.getLast?_eq_head?_reverse, ← List.filter_reverse, List.head?_filter,
    List.find?_eq_some_iff_append]
  simp only [ne_eq, Bool.and_eq_true, decide_eq_true_eq] at dropped ⊢
  simp only [dropped]
  rw [and_comm]
  refine and_congr_left fun _ => ?_
  constructor
  · rintro ⟨after, ahead, h, skipped⟩
    refine ⟨ahead.reverse, after.reverse, ?_, fun c hc => skipped c (List.mem_reverse.mp hc)⟩
    rw [← List.reverse_reverse parts, h]
    simp
  · rintro ⟨before, behind, rfl, skipped⟩
    exact ⟨behind.reverse, before.reverse, by simp, fun c hc => skipped c (List.mem_reverse.mp hc)⟩

theorem names_iff_getLast? {path : String} {name : List Char} :
    Names path name ↔ (components path.toList).getLast? = some name := by
  rw [components_eq_keep, getLast?_keep]
  exact ⟨fun h => ⟨h.last, h.ne_nil, h.ne_dot⟩, fun h => ⟨h.1, h.2.1, h.2.2⟩⟩

theorem names_iff {path : String} {name : List Char} :
    Names path name ↔ name ≠ [] ∧ fileName path = name := by
  rw [names_iff_getLast?, fileName]
  cases hlast : (components path.toList).getLast? with
  | none =>
    simp only [reduceCtorEq, Option.getD_none, false_iff, not_and]
    exact fun hne he => hne he.symm
  | some last =>
    have hne := (component_of_mem (List.mem_of_getLast? hlast)).ne_nil
    simp only [Option.some.injEq, Option.getD_some]
    exact ⟨fun h => ⟨h ▸ hne, h⟩, fun h => h.2⟩

/-! ## The last dot -/

theorem takeWhile_reverse_append {after : List Char} (h : '.' ∉ after) (more : List Char) :
    (after.reverse ++ more).takeWhile (· ≠ '.') = after.reverse ++ more.takeWhile (· ≠ '.') := by
  refine List.takeWhile_append_of_pos fun c hc => decide_eq_true fun hdot => h ?_
  rw [← hdot]
  exact List.mem_reverse.mp hc

theorem suffix_of_no_dot {name : List Char} (h : '.' ∉ name) : suffix name = [] := by
  have whole := takeWhile_reverse_append h []
  rw [List.append_nil, List.takeWhile_nil, List.append_nil] at whole
  unfold suffix
  rw [whole, List.reverse_reverse]
  exact if_neg fun h => Nat.lt_irrefl _ h.2.1

theorem suffix_append_dot {front after : List Char} (h : '.' ∉ after) :
    suffix (front ++ '.' :: after) = if after ≠ [] ∧ front ≠ [] then '.' :: after else [] := by
  have cut : (front ++ '.' :: after).reverse.takeWhile (· ≠ '.') = after.reverse := by
    rw [List.reverse_append, List.reverse_cons, List.append_assoc, takeWhile_reverse_append h]
    simp
  have sides : (after ≠ [] ∧ after.length < (front ++ '.' :: after).length ∧
      0 < (front ++ '.' :: after).length - (after.length + 1)) ↔ after ≠ [] ∧ front ≠ [] := by
    refine and_congr_right fun _ => ?_
    rw [List.length_append, List.length_cons, ← List.length_pos_iff]
    omega
  unfold suffix
  rw [cut, List.reverse_reverse]
  simp only [sides]

/-- Either there is no dot, or there is a last one. -/
theorem dot_cases (name : List Char) :
    '.' ∉ name ∨ ∃ front after, name = front ++ '.' :: after ∧ '.' ∉ after := by
  by_cases h : '.' ∈ name
  · obtain ⟨after, front, hname, hafter⟩ := List.eq_append_cons_of_mem (List.mem_reverse.mpr h)
    refine .inr ⟨front.reverse, after.reverse, ?_, fun hm => hafter (List.mem_reverse.mp hm)⟩
    rw [← List.reverse_reverse name, hname]
    simp
  · exact .inl h

theorem lastDot_append (front : List Char) {after : List Char} (h : '.' ∉ after) :
    LastDot (front ++ '.' :: after) front.length := by
  refine ⟨by simp, fun later hlt hdot => h ?_⟩
  obtain ⟨k, rfl⟩ := Nat.exists_eq_add_of_lt hlt
  rw [List.getElem?_append_right (by omega), show front.length + k + 1 - front.length = k + 1 by omega,
    List.getElem?_cons_succ] at hdot
  exact List.mem_of_getElem? hdot

theorem LastDot.unique {name : List Char} {place other : Nat} (h : LastDot name place)
    (h' : LastDot name other) : place = other := by
  rcases Nat.lt_trichotomy place other with hlt | heq | hlt
  · exact absurd h'.1 (h.2 other hlt)
  · exact heq
  · exact absurd h.1 (h'.2 place hlt)

theorem LastDot.suffix_eq {name : List Char} {place : Nat} (h : LastDot name place) (first : 0 < place)
    (last : place < name.length - 1) : suffix name = name.drop place := by
  rcases dot_cases name with none | ⟨front, after, rfl, hafter⟩
  · exact absurd (List.mem_of_getElem? h.1) none
  · obtain rfl : place = front.length := h.unique (lastDot_append front hafter)
    rw [List.length_append, List.length_cons] at last
    rw [suffix_append_dot hafter, if_pos, List.drop_left]
    rw [← List.length_pos_iff, ← List.length_pos_iff]
    omega

theorem exists_lastDot {name : List Char} (h : suffix name ≠ []) :
    ∃ place, LastDot name place ∧ 0 < place ∧ place < name.length - 1 := by
  rcases dot_cases name with none | ⟨front, after, rfl, hafter⟩
  · exact absurd (suffix_of_no_dot none) h
  · rw [suffix_append_dot hafter] at h
    obtain ⟨hne, hfront⟩ : after ≠ [] ∧ front ≠ [] := Decidable.byContradiction fun hn => h (if_neg hn)
    have hpos := List.length_pos_iff.mpr hne
    refine ⟨front.length, lastDot_append front hafter, List.length_pos_iff.mpr hfront, ?_⟩
    rw [List.length_append, List.length_cons]
    omega

theorem hasSuffix_iff {path : String} {suffix : List Char} :
    HasSuffix path suffix ↔ suffix ≠ [] ∧ Path.suffix (fileName path) = suffix := by
  constructor
  · intro h
    obtain @⟨name, place, names, dot, first, last⟩ := h
    constructor
    · rw [← List.length_pos_iff, List.length_drop]
      omega
    · rw [(names_iff.mp names).2, dot.suffix_eq first last]
  · rintro ⟨hne, rfl⟩
    have names : Names path (fileName path) := by
      refine names_iff.mpr ⟨fun hempty => ?_, rfl⟩
      rw [hempty] at hne
      exact hne rfl
    obtain ⟨place, dot, first, last⟩ := exists_lastDot hne
    rw [dot.suffix_eq first last]
    exact .intro names dot first last

/-! ## File ids -/

theorem resolve_concat (above : List (List Char)) {name : List Char} (h : name ≠ ['.', '.']) :
    resolve (above ++ [name]) = resolve above ++ [name] := by
  rw [resolve, List.foldl_append, List.foldl_cons, List.foldl_nil, enter, if_neg h, List.reverse_cons]
  rfl

theorem components_canonical (directory path : String) :
    components (canonical directory path).toList = canonicalComponents directory path := by
  rw [toList_canonical]
  exact components_join fun c hc => (plain_of_mem hc).toComponent

theorem names_canonical {path : String} {name : List Char} (h : Names path name) (hdots : name ≠ ['.', '.'])
    (directory : String) : Names (canonical directory path) name := by
  rw [names_iff_getLast?] at h ⊢
  obtain ⟨init, hinit⟩ := List.getLast?_eq_some_iff.mp h
  have full : ∃ above, fullComponents directory.toList path.toList = above ++ [name] := by
    unfold fullComponents
    split
    · exact ⟨init, hinit⟩
    · exact ⟨components directory.toList ++ init, by rw [hinit, List.append_assoc]⟩
  obtain ⟨above, habove⟩ := full
  rw [components_canonical, canonicalComponents, habove, resolve_concat above hdots, List.getLast?_concat]

theorem fileName_canonical {path : String} {name : List Char} (h : Names path name)
    (hdots : name ≠ ['.', '.']) (directory : String) :
    fileName (canonical directory path) = fileName path := by
  rw [(names_iff.mp h).2, (names_iff.mp (names_canonical h hdots directory)).2]

end Path
end CodeIndex
