import CodeIndex.Path

/-!
# CodeIndex.Proofs.Path.Canonical

File ids are canonical: taken as paths, they stand for themselves, in any working directory.

* `Component`, `Plain`: the components that a path has, and those that are left after resolution.
* `components_join`: a path that is joined from components has these components.
* `canonical_canonical`: the id of a file id is this file id.
* `hasNul_canonical`: a file id has no U+0000, if neither the path nor the directory has one.
-/

namespace CodeIndex
namespace Path

/-- What stands between two slashes and names something. -/
structure Component (c : List Char) : Prop where
  ne_nil : c ≠ []
  ne_dot : c ≠ ['.']
  no_slash : '/' ∉ c

/-- A component that does not lead upwards. -/
structure Plain (c : List Char) : Prop extends Component c where
  ne_dots : c ≠ ['.', '.']

/-! ## Components -/

theorem of_mem_segments {path c : List Char} {d : Char} (h : c ∈ segments path) (hd : d ∈ c) :
    d ≠ '/' ∧ d ∈ path := by
  induction path generalizing c with
  | nil =>
    rw [segments, List.mem_singleton] at h
    subst h
    cases hd
  | cons e path ih =>
    rw [segments] at h
    split at h
    · rcases List.mem_cons.mp h with rfl | h
      · cases hd
      · exact ⟨(ih h hd).1, List.mem_cons_of_mem e (ih h hd).2⟩
    · rename_i he
      split at h
      · rw [List.mem_singleton.mp h, List.mem_singleton] at hd
        subst hd
        exact ⟨he, List.mem_cons_self⟩
      · rename_i s rest hs
        rw [hs] at ih
        rcases List.mem_cons.mp h with rfl | h
        · rcases List.mem_cons.mp hd with rfl | hd
          · exact ⟨he, List.mem_cons_self⟩
          · have hm := ih List.mem_cons_self hd
            exact ⟨hm.1, List.mem_cons_of_mem e hm.2⟩
        · have hm := ih (List.mem_cons_of_mem s h) hd
          exact ⟨hm.1, List.mem_cons_of_mem e hm.2⟩

theorem component_of_mem {path c : List Char} (h : c ∈ components path) : Component c := by
  obtain ⟨hm, hp⟩ := List.mem_filter.mp h
  simp only [ne_eq, Bool.and_eq_true, decide_eq_true_eq] at hp
  exact ⟨hp.1, hp.2, fun hs => (of_mem_segments hm hs).1 rfl⟩

theorem segments_ne_nil (path : List Char) : segments path ≠ [] := by
  cases path with
  | nil => simp [segments]
  | cons c path =>
    rw [segments]
    split
    · simp
    · split <;> simp

theorem segments_append_slash (path more : List Char) :
    segments (path ++ '/' :: more) = segments path ++ segments more := by
  induction path with
  | nil => rfl
  | cons c path ih =>
    rw [List.cons_append, segments, segments, ih]
    split
    · rfl
    · cases hs : segments path with
      | nil => exact absurd hs (segments_ne_nil path)
      | cons s rest => rfl

/-- What has no slash in it belongs to the next segment. -/
theorem segments_append_of_no_slash {front : List Char} (h : '/' ∉ front) (path : List Char) :
    segments (front ++ path) = (segments path).modifyHead (front ++ ·) := by
  cases hs : segments path with
  | nil => exact absurd hs (segments_ne_nil path)
  | cons s rest =>
    induction front with
    | nil => exact hs
    | cons c front ih =>
      rw [List.mem_cons, not_or] at h
      rw [List.cons_append, segments, if_neg (Ne.symm h.1), ih h.2]
      rfl

theorem segments_of_no_slash {c : List Char} (h : '/' ∉ c) : segments c = [c] := by
  have whole := segments_append_of_no_slash h []
  rwa [List.append_nil, segments, List.modifyHead, List.append_nil] at whole

/-- A segment ends at the next slash. -/
theorem segments_append {c : List Char} (h : '/' ∉ c) (path : List Char) :
    segments (c ++ '/' :: path) = c :: segments path := by
  rw [segments_append_slash, segments_of_no_slash h, List.singleton_append]

theorem segments_flatMap {cs : List (List Char)} (h : ∀ c ∈ cs, '/' ∉ c) (hne : cs ≠ []) :
    segments (cs.flatMap fun c => '/' :: c) = [] :: cs := by
  induction cs with
  | nil => exact absurd rfl hne
  | cons c cs ih =>
    have hc := h c List.mem_cons_self
    rw [List.flatMap_cons, List.cons_append, segments, if_pos rfl]
    cases cs with
    | nil => simpa using segments_of_no_slash hc
    | cons d cs =>
      have hrest := ih (fun e he => h e (List.mem_cons_of_mem c he)) (by simp)
      rw [List.flatMap_cons, List.cons_append, segments, if_pos rfl] at hrest
      rw [List.flatMap_cons, List.cons_append, segments_append hc, (List.cons.inj hrest).2]

theorem components_join {cs : List (List Char)} (h : ∀ c ∈ cs, Component c) :
    components (join cs) = cs := by
  cases cs with
  | nil => rfl
  | cons c cs =>
    have hsegments := segments_flatMap (fun d hd => (h d hd).no_slash) (List.cons_ne_nil c cs)
    rw [components, join, hsegments]
    · rw [List.filter_cons_of_neg (by simp), List.filter_eq_self]
      intro d hd
      simp [(h d hd).ne_nil, (h d hd).ne_dot]
    · simp

/-! ## Resolution -/

theorem of_mem_foldl_enter {cs above : List (List Char)} {c : List Char}
    (h : c ∈ cs.foldl enter above) : c ∈ above ∨ (c ∈ cs ∧ c ≠ ['.', '.']) := by
  induction cs generalizing above with
  | nil => exact .inl h
  | cons d cs ih =>
    rcases ih h with hm | ⟨hm, hne⟩
    · unfold enter at hm
      split at hm
      · exact .inl (List.mem_of_mem_drop hm)
      · rename_i hd
        rcases List.mem_cons.mp hm with rfl | hm
        · exact .inr ⟨List.mem_cons_self, hd⟩
        · exact .inl hm
    · exact .inr ⟨List.mem_cons_of_mem d hm, hne⟩

theorem of_mem_resolve {cs : List (List Char)} {c : List Char} (h : c ∈ resolve cs) :
    c ∈ cs ∧ c ≠ ['.', '.'] := by
  rcases of_mem_foldl_enter (List.mem_reverse.mp h) with hm | hm
  · cases hm
  · exact hm

theorem foldl_enter_of_plain {cs : List (List Char)} (h : ∀ c ∈ cs, Plain c) :
    ∀ above, cs.foldl enter above = cs.reverse ++ above := by
  induction cs with
  | nil =>
    intro above
    rfl
  | cons c cs ih =>
    intro above
    have hc := (h c List.mem_cons_self).ne_dots
    rw [List.foldl_cons, enter, if_neg hc, ih fun d hd => h d (List.mem_cons_of_mem c hd)]
    simp

theorem resolve_of_plain {cs : List (List Char)} (h : ∀ c ∈ cs, Plain c) : resolve cs = cs := by
  simp [resolve, foldl_enter_of_plain h]

/-! ## File ids -/

/-- The components of a file id. -/
def canonicalComponents (directory path : String) : List (List Char) :=
  resolve (fullComponents directory.toList path.toList)

theorem of_mem_full {directory path c : List Char} (h : c ∈ fullComponents directory path) :
    c ∈ components directory ∨ c ∈ components path := by
  unfold fullComponents at h
  split at h
  · exact .inr h
  · exact List.mem_append.mp h

theorem plain_of_mem {directory path : String} {c : List Char}
    (h : c ∈ canonicalComponents directory path) : Plain c := by
  obtain ⟨hm, hne⟩ := of_mem_resolve h
  rcases of_mem_full hm with hm | hm
  · exact ⟨component_of_mem hm, hne⟩
  · exact ⟨component_of_mem hm, hne⟩

theorem isAbsolute_join (cs : List (List Char)) : isAbsolute (join cs) = true := by
  cases cs with
  | nil => rfl
  | cons c cs => simp [isAbsolute, join]

theorem toList_canonical (directory path : String) :
    (canonical directory path).toList = join (canonicalComponents directory path) :=
  String.toList_ofList

theorem canonicalComponents_canonical (directory other path : String) :
    canonicalComponents other (canonical directory path) = canonicalComponents directory path := by
  have hplain := fun c (hc : c ∈ canonicalComponents directory path) => plain_of_mem hc
  have hcomponents := components_join fun c hc => (hplain c hc).toComponent
  rw [canonicalComponents, toList_canonical, fullComponents, if_pos (isAbsolute_join _), hcomponents,
    resolve_of_plain hplain]

/-- A file id stands for itself. -/
theorem canonical_canonical (directory other path : String) :
    canonical other (canonical directory path) = canonical directory path := by
  have h := canonicalComponents_canonical directory other path
  unfold canonicalComponents at h
  rw [canonical, h]
  rfl

theorem of_mem_join {cs : List (List Char)} {d : Char} (h : d ∈ join cs) :
    d = '/' ∨ ∃ c ∈ cs, d ∈ c := by
  cases cs with
  | nil =>
    rw [join, List.mem_singleton] at h
    exact .inl h
  | cons c cs =>
    rw [join] at h
    · obtain ⟨e, he, hd⟩ := List.mem_flatMap.mp h
      rcases List.mem_cons.mp hd with rfl | hd
      · exact .inl rfl
      · exact .inr ⟨e, he, hd⟩
    · simp

theorem mem_of_mem_components {path c : List Char} {d : Char} (h : c ∈ components path)
    (hd : d ∈ c) : d ∈ path :=
  (of_mem_segments (List.mem_filter.mp h).1 hd).2

theorem hasNul_canonical {directory path : String} (hdirectory : hasNul directory = false)
    (hpath : hasNul path = false) : hasNul (canonical directory path) = false := by
  simp only [hasNul, Bool.eq_false_iff, ne_eq, List.contains_iff_mem] at hdirectory hpath ⊢
  intro h
  rw [toList_canonical] at h
  rcases of_mem_join h with h | ⟨c, hc, h⟩
  · cases h
  · rcases of_mem_full (of_mem_resolve hc).1 with hm | hm
    · exact hdirectory (mem_of_mem_components hm h)
    · exact hpath (mem_of_mem_components hm h)

end Path
end CodeIndex
