import CodeIndex.Proofs.Path.Canonical
import Mathlib.Logic.Relation

/-!
# CodeIndex.Proofs.Path.Spelling

Which paths are spellings of one file.

* `spelled`: what stands between the slashes of a path, behind the same of the directory that it starts from.
* `Shortens`: one rule by which such a list gets shorter. `Shortened`: no name is left that a rule is for.
* `shortened_iff`: the rules can be used up in any order, and `resolve` gives what is left.
* `canonical_eq_iff`: the id of a file stands for exactly the paths that are shortened to the same names.
* `normal_join`: what a file id looks like.
-/

namespace CodeIndex
namespace Path

/-! ## Slashes -/

theorem segments_eq_splitOn (path : List Char) : segments path = path.splitOn '/' := by
  induction path with
  | nil => rfl
  | cons c path ih =>
    unfold List.splitOn at ih ⊢
    rw [segments, List.splitOnP_cons_eq_if_modifyHead, ← ih]
    by_cases hc : c = '/'
    · rw [if_pos hc, if_pos (beq_iff_eq.mpr hc)]
    · rw [if_neg hc, if_neg (by simpa using hc)]
      cases hs : segments path with
      | nil => exact absurd hs (segments_ne_nil path)
      | cons s rest => rfl

theorem no_slash_of_mem_splitOn {path c : List Char} (h : c ∈ path.splitOn '/') : '/' ∉ c := by
  rw [← segments_eq_splitOn] at h
  exact fun hs => (of_mem_segments h hs).1 rfl

/-! ## Rules -/

/-- The directory counts for a path that does not begin with a slash. -/
def spelled (directory path : List Char) : List (List Char) :=
  if isAbsolute path then path.splitOn '/' else directory.splitOn '/' ++ path.splitOn '/'

/-- Nothing between two slashes and a dot are dropped. Two dots take the name before them along; at the
root they are dropped alone. -/
inductive Shortens : List (List Char) → List (List Char) → Prop where
  | empty (above below : List (List Char)) : Shortens (above ++ [] :: below) (above ++ below)
  | dot (above below : List (List Char)) : Shortens (above ++ ['.'] :: below) (above ++ below)
  | up (above below : List (List Char)) {name : List Char} (plain : Plain name) :
      Shortens (above ++ name :: ['.', '.'] :: below) (above ++ below)
  | root (below : List (List Char)) : Shortens (['.', '.'] :: below) below

/-- The rules lead from `parts` to `names`, and no rule applies to these. -/
structure Shortened (parts names : List (List Char)) : Prop where
  leads : Relation.ReflTransGen Shortens parts names
  plain : ∀ c ∈ names, Plain c

/-- The components among some parts. -/
def keep (parts : List (List Char)) : List (List Char) :=
  parts.filter fun c => c ≠ [] && c ≠ ['.']

theorem keep_append (parts more : List (List Char)) : keep (parts ++ more) = keep parts ++ keep more :=
  List.filter_append ..

theorem keep_cons_of_component {c : List Char} (h : Component c) (parts : List (List Char)) :
    keep (c :: parts) = c :: keep parts :=
  List.filter_cons_of_pos (by simp [h.ne_nil, h.ne_dot])

theorem keep_of_plain {names : List (List Char)} (h : ∀ c ∈ names, Plain c) : keep names = names := by
  refine List.filter_eq_self.mpr fun c hc => ?_
  simp [(h c hc).ne_nil, (h c hc).ne_dot]

theorem component_dots : Component ['.', '.'] := ⟨by decide, by decide, by decide⟩

theorem enter_enter_dots {name : List Char} (h : name ≠ ['.', '.']) (above : List (List Char)) :
    enter (enter above name) ['.', '.'] = above := by
  rw [enter, if_pos rfl, enter, if_neg h]
  rfl

/-- No rule changes what the components are resolved to. -/
theorem Shortens.resolve_eq {parts parts' : List (List Char)} (h : Shortens parts parts') :
    resolve (keep parts) = resolve (keep parts') := by
  cases h with
  | empty above below => rw [keep_append, keep_append]; rfl
  | dot above below => rw [keep_append, keep_append]; rfl
  | up above below plain =>
    rw [keep_append, keep_cons_of_component plain.toComponent, keep_cons_of_component component_dots,
      keep_append, resolve, resolve, List.foldl_append, List.foldl_append, List.foldl_cons, List.foldl_cons,
      enter_enter_dots plain.ne_dots]
  | root below => rw [keep_cons_of_component component_dots]; rfl

theorem resolve_of_shortens {parts names : List (List Char)}
    (h : Relation.ReflTransGen Shortens parts names) : resolve (keep parts) = resolve (keep names) := by
  induction h with
  | refl => rfl
  | tail _ step ih => rw [ih, step.resolve_eq]

/-- The rules lead to what the components are resolved to: each part is the next one to be looked at, behind
the names that have been entered. -/
theorem shortens_enter {parts : List (List Char)} (h : ∀ c ∈ parts, '/' ∉ c) :
    ∀ above : List (List Char), (∀ c ∈ above, Plain c) →
      Relation.ReflTransGen Shortens (above.reverse ++ parts) ((keep parts).foldl enter above).reverse := by
  induction parts with
  | nil =>
    intro above _
    rw [List.append_nil]
    exact .refl
  | cons c parts ih =>
    intro above plain
    rw [List.forall_mem_cons] at h
    obtain ⟨noSlash, h⟩ := h
    by_cases hempty : c = []
    · subst hempty
      exact .head (.empty _ _) (ih h above plain)
    by_cases hdot : c = ['.']
    · subst hdot
      exact .head (.dot _ _) (ih h above plain)
    have component : Component c := ⟨hempty, hdot, noSlash⟩
    rw [keep_cons_of_component component, List.foldl_cons]
    by_cases hdots : c = ['.', '.']
    · subst hdots
      cases above with
      | nil => exact .head (.root _) (ih h [] plain)
      | cons name above =>
        rw [List.forall_mem_cons] at plain
        rw [List.reverse_cons, List.append_assoc, List.singleton_append]
        exact .head (.up _ _ plain.1) (ih h above plain.2)
    · have deeper := ih h (c :: above) (List.forall_mem_cons.mpr ⟨⟨component, hdots⟩, plain⟩)
      rw [List.reverse_cons, List.append_assoc, List.singleton_append] at deeper
      rw [enter, if_neg hdots]
      exact deeper

theorem plain_of_mem_resolve {parts : List (List Char)} (h : ∀ c ∈ parts, '/' ∉ c) :
    ∀ c ∈ resolve (keep parts), Plain c := by
  intro c hc
  obtain ⟨hm, hdots⟩ := of_mem_resolve hc
  obtain ⟨hm, hp⟩ := List.mem_filter.mp hm
  simp only [ne_eq, Bool.and_eq_true, decide_eq_true_eq] at hp
  exact ⟨⟨hp.1, hp.2, h c hm⟩, hdots⟩

/-- The rules can be used up in any order. -/
theorem shortened_iff {parts names : List (List Char)} (h : ∀ c ∈ parts, '/' ∉ c) :
    Shortened parts names ↔ names = resolve (keep parts) := by
  constructor
  · rintro ⟨leads, plain⟩
    rw [resolve_of_shortens leads, keep_of_plain plain, resolve_of_plain plain]
  · rintro rfl
    exact ⟨shortens_enter h [] (by simp), plain_of_mem_resolve h⟩

/-! ## File ids -/

theorem no_slash_of_mem_spelled {directory path c : List Char} (h : c ∈ spelled directory path) :
    '/' ∉ c := by
  unfold spelled at h
  split at h
  · exact no_slash_of_mem_splitOn h
  · rcases List.mem_append.mp h with h | h
    · exact no_slash_of_mem_splitOn h
    · exact no_slash_of_mem_splitOn h

theorem components_eq_keep (path : List Char) : components path = keep (path.splitOn '/') := by
  rw [components, segments_eq_splitOn]
  rfl

theorem fullComponents_eq (directory path : List Char) :
    fullComponents directory path = keep (spelled directory path) := by
  unfold fullComponents spelled
  rw [components_eq_keep, components_eq_keep]
  split
  · rfl
  · exact (keep_append _ _).symm

theorem shortened_spelled_iff {directory path : String} {names : List (List Char)} :
    Shortened (spelled directory.toList path.toList) names ↔
      names = canonicalComponents directory path := by
  rw [shortened_iff fun c => no_slash_of_mem_spelled, canonicalComponents, fullComponents_eq]

theorem canonical_eq_iff_components {directory path other : String} :
    canonical directory path = canonical directory other ↔
      canonicalComponents directory path = canonicalComponents directory other := by
  constructor
  · intro h
    rw [← canonicalComponents_canonical directory directory path, h,
      canonicalComponents_canonical]
  · intro h
    unfold canonicalComponents at h
    rw [canonical, h, canonical]

/-- Two paths are shortened to the same names. -/
def SameFile (directory path other : String) : Prop :=
  ∃ names, Shortened (spelled directory.toList path.toList) names ∧
    Shortened (spelled directory.toList other.toList) names

theorem canonical_eq_iff {directory path other : String} :
    canonical directory path = canonical directory other ↔ SameFile directory path other := by
  simp only [SameFile, shortened_spelled_iff, canonical_eq_iff_components, exists_eq_left]

/-- What a file id looks like. -/
inductive Normal : List Char → Prop where
  | root : Normal ['/']
  | below {path : List Char} (absolute : path.head? = some '/')
      (names : ∀ c ∈ (path.splitOn '/').tail, c ≠ [] ∧ c ≠ ['.'] ∧ c ≠ ['.', '.'])
      (open_ended : path.getLast? ≠ some '/') : Normal path

theorem normal_join {names : List (List Char)} (plain : ∀ c ∈ names, Plain c) : Normal (join names) := by
  by_cases hne : names = []
  · subst hne
    exact .root
  have joined : join names = names.flatMap fun c => '/' :: c := by
    cases names with
    | nil => exact absurd rfl hne
    | cons c names => rfl
  have split : segments (join names) = [] :: names := by
    rw [joined, segments_flatMap (fun c hc => (plain c hc).no_slash) hne]
  refine .below ?_ ?_ ?_
  · have absolute := isAbsolute_join names
    exact beq_iff_eq.mp absolute
  · rw [← segments_eq_splitOn, split]
    intro c hc
    exact ⟨(plain c hc).ne_nil, (plain c hc).ne_dot, (plain c hc).ne_dots⟩
  · -- a slash at the end would have nothing behind it
    intro hlast
    obtain ⟨path, hpath⟩ := List.getLast?_eq_some_iff.mp hlast
    rw [hpath, segments_append_slash] at split
    cases hs : segments path with
    | nil => exact segments_ne_nil path hs
    | cons s rest =>
      rw [hs] at split
      have hnames : rest ++ [[]] = names := (List.cons.inj split).2
      exact (plain [] (hnames ▸ List.mem_append_right rest List.mem_cons_self)).ne_nil rfl

theorem normal_canonical (directory path : String) : Normal (canonical directory path).toList := by
  rw [toList_canonical]
  exact normal_join fun c hc => plain_of_mem hc

end Path
end CodeIndex
