import CodeIndex.Language.Blocks
import CodeIndex.Lookup.InDocument
import CodeIndex.Proofs.Syntax.Descent

/-!
# CodeIndex.Proofs.Lookup.Enclosing

The text at a point is that of the innermost block around it.

* `IsBlock`: the entries of a tree that are blocks around a point.
* `suffix_path_of_isBlock`: all of them are on the path to the point, so that the first block on the path
  is the deepest one.
* `innermost_block`: the answer at every point.
-/

namespace CodeIndex
namespace Enclosing

/-- The end of the root still belongs to the root. -/
structure IsBlock (blocks : List String) (p : Point) (root : Node) (e : List Node × Node) : Prop where
  entry : e ∈ outline root
  kind : e.2.kind ∈ blocks
  around : e.2.Spans p ∨ (e.1 = [] ∧ e.2.label.stop = p)

variable {blocks : List String} {p : Point} {root : Node} {e f : List Node × Node}

theorem eq_root_of_above_eq_nil (he : e ∈ outline root) (h : e.1 = []) : e.2 = root := by
  have hsuffix := suffix_of_mem_outlineUnder he
  rw [h] at hsuffix
  have heq := hsuffix.eq_of_length rfl
  cases heq
  rfl

theorem suffix_path_of_isBlock (nested : root.Nested) (clear : root.Clear p)
    (h : IsBlock blocks p root e) : e.2 :: e.1 <:+ root.pathTo p := by
  rw [← List.append_nil (root.pathTo p)]
  rcases h.around with hp | ⟨habove, -⟩
  · exact Node.suffix_pathTo_of_mem nested clear h.entry hp
  · rw [eq_root_of_above_eq_nil h.entry habove, habove]
    exact Node.suffix_pathTo_self p root []

/-- A point that is not outside of the root is around it, or at its end. -/
theorem around_root (h : isOutside root p = false) : root.Spans p ∨ root.label.stop = p := by
  rw [isOutside, Bool.or_eq_false_iff] at h
  have hfrom : root.label.start.le p := by rw [Point.le, h.1]; rfl
  have hto : p.le root.label.stop := by rw [Point.le, h.2]; rfl
  by_cases hlt : p.lt root.label.stop
  · exact .inl ⟨hfrom, hlt⟩
  · exact .inr (Point.eq_of_le_of_not_lt hto hlt).symm

/-- A block on the path to a point that is not outside is a block around it. -/
theorem isBlock_of_path (nested : root.Nested) (clear : root.Clear p)
    (hinside : isOutside root p = false) {before behind : List Node} {block : Node}
    (hpath : root.pathTo p = before ++ block :: behind) (hkind : block.kind ∈ blocks) :
    IsBlock blocks p root (behind, block) := by
  obtain ⟨hentry, hblock⟩ := Node.mem_of_pathTo_eq nested clear hpath []
  rw [List.append_nil] at hentry
  refine ⟨hentry, hkind, ?_⟩
  rcases hblock with ⟨rfl, rfl⟩ | hspans
  · exact (around_root hinside).imp_right fun hstop => ⟨rfl, hstop⟩
  · exact .inl hspans

/-- A block that no other block stands before on the path is deeper than all others. -/
theorem deepest_of_path {before behind : List Node} {block : Node}
    (hpath : root.pathTo p = before ++ block :: behind)
    (hbefore : ∀ n ∈ before, n.kind ∉ blocks) (hf : f.2.kind ∈ blocks)
    (hsuffix : f.2 :: f.1 <:+ root.pathTo p) (hne : f ≠ (behind, block)) :
    f.1.length < behind.length := by
  obtain ⟨rest, hrest⟩ := hsuffix
  rw [hpath] at hrest
  rcases List.append_eq_append_iff.mp hrest with ⟨between, hbetween, htail⟩ | ⟨between, -, htail⟩
  · cases between with
    | nil =>
      cases htail
      exact absurd rfl hne
    | cons n between =>
      -- the other block stands before the first one
      rw [List.cons_append, List.cons.injEq] at htail
      have hmem : f.2 ∈ before := by
        rw [hbetween, htail.1]
        exact List.mem_append_right _ List.mem_cons_self
      exact absurd hf (hbefore f.2 hmem)
  · cases between with
    | nil =>
      cases htail
      exact absurd rfl hne
    | cons n between =>
      rw [List.cons_append, List.cons.injEq] at htail
      rw [htail.2, List.length_append, List.length_cons]
      omega

theorem pathTo?_of_descent {tree : Tree} (descent : tree.hasDescent = true) (p : Point) :
    tree.pathTo? p = some (tree.root.pathTo p) := if_pos descent

/-- There is no text just for a point before the root or behind its end. For all others it is that of the
deepest block around the point, and the whole text if there is none. -/
theorem innermost_block {d : Document} (descent : d.tree.hasDescent = true)
    (nested : d.tree.root.Nested) {p : Point} (clear : d.tree.root.Clear p) (blocks : List String) :
    (text? d blocks p = none ↔ p.lt d.tree.root.label.start ∨ d.tree.root.label.stop.lt p) ∧
      (¬ (p.lt d.tree.root.label.start ∨ d.tree.root.label.stop.lt p) →
        ((∃ e, IsBlock blocks p d.tree.root e) → ∃ e, IsBlock blocks p d.tree.root e ∧
          (∀ f, IsBlock blocks p d.tree.root f → f ≠ e → f.1.length < e.1.length) ∧
          text? d blocks p = some (d.textOf e.2)) ∧
        ((∀ e, ¬ IsBlock blocks p d.tree.root e) → text? d blocks p = some d.text)) := by
  have houtside : isOutside d.tree.root p = true ↔
      p.lt d.tree.root.label.start ∨ d.tree.root.label.stop.lt p := by
    rw [isOutside, Bool.or_eq_true]
  rw [text?, pathTo?_of_descent descent, Option.map_some, ← houtside]
  refine ⟨by split <;> simp [*], fun hinside => ?_⟩
  rw [if_neg hinside]
  rw [Bool.not_eq_true] at hinside
  cases hfind : (d.tree.root.pathTo p).find? fun n => blocks.contains n.kind with
  | some block =>
    obtain ⟨hkind, before, behind, hpath, hbefore⟩ := List.find?_eq_some_iff_append.mp hfind
    have hblock := isBlock_of_path nested clear hinside hpath (List.contains_iff_mem.mp hkind)
    have hdeepest : ∀ f, IsBlock blocks p d.tree.root f → f ≠ (behind, block) →
        f.1.length < behind.length := fun f hf hne =>
      deepest_of_path hpath (fun n hn hmem => by simpa [hmem] using hbefore n hn) hf.kind
        (suffix_path_of_isBlock nested clear hf) hne
    exact ⟨fun _ => ⟨_, hblock, hdeepest, rfl⟩, fun hnone => absurd hblock (hnone _)⟩
  | none =>
    refine ⟨fun ⟨e, he⟩ => ?_, fun _ => rfl⟩
    have hmem := (suffix_path_of_isBlock nested clear he).subset List.mem_cons_self
    exact absurd (List.contains_iff_mem.mpr he.kind) (List.find?_eq_none.mp hfind e.2 hmem)

/-- `n` begins where `m` ends. -/
def twoMethods : Document where
  serial := 0
  file := "/a.js"
  language := "javascript"
  grammar := ⟨"javascript"⟩
  source := Utf8.encode "class A\x7b\nm()\x7b\x7dn()\x7b\x7d\n\x7d\n".toList
  tree :=
    { root := .node ⟨0, "program", true, 0, 22, ⟨0, 0⟩, ⟨3, 0⟩, none⟩ [
        .node ⟨1, "class_declaration", true, 0, 21, ⟨0, 0⟩, ⟨2, 1⟩, none⟩ [
          .node ⟨2, "method_definition", true, 9, 14, ⟨1, 0⟩, ⟨1, 5⟩, none⟩ [],
          .node ⟨3, "method_definition", true, 14, 19, ⟨1, 5⟩, ⟨1, 10⟩, none⟩ []]]
      hasText := true
      hasDescent := true
      found := [] }

theorem innermost_block_between_methods :
    let root := twoMethods.tree.root
    let blocks := Language.blocks [] "javascript"
    root.Nested ∧ root.Clear ⟨1, 5⟩ ∧
      (∃ e, IsBlock blocks ⟨1, 5⟩ root e ∧
        (∀ f, IsBlock blocks ⟨1, 5⟩ root f → f ≠ e → f.1.length < e.1.length) ∧
        text? twoMethods blocks ⟨1, 5⟩ = some (twoMethods.textOf e.2)) ∧
      text? twoMethods blocks ⟨1, 5⟩ = some "n()\x7b\x7d" := by
  intro root blocks
  have nested : root.Nested := ⟨by decide, by decide⟩
  have clear : root.Clear ⟨1, 5⟩ := by unfold Node.Clear; decide
  have inside : ¬ (Point.lt ⟨1, 5⟩ root.label.start ∨ root.label.stop.lt ⟨1, 5⟩) := by decide
  have hblock : IsBlock blocks ⟨1, 5⟩ root _ := isBlock_of_path nested clear rfl
    (show root.pathTo ⟨1, 5⟩ = [] ++ _ :: _ from rfl) (by decide)
  have h := (innermost_block (d := twoMethods) rfl nested clear blocks).2 inside
  exact ⟨nested, clear, h.1 ⟨_, hblock⟩, by decide +kernel⟩

end Enclosing
end CodeIndex
