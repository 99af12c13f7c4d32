import CodeIndex.Proofs.Syntax.Build

/-!
# CodeIndex.Proofs.Syntax.Thin

The thin tree is the concrete tree without the dropped nodes and all that is below them.

* `Thin.fold_eq`: a thin node, from its node and the thin trees of the children that are kept.
* `thin_is_pruned`: the entries of the thin tree are those of the concrete tree in which no node is dropped.
-/

namespace CodeIndex
namespace Thin

variable (text : Node → String)

theorem keeps_eq_false_iff {n : Node} :
    keeps n = false ↔ n.label.named = false ∨ n.kind ∈ commentKinds := by
  rw [keeps, Bool.and_eq_false_iff, Bool.not_eq_false', List.contains_iff_mem]

/-- The thin tree that a node has where it is kept. -/
abbrev fold : Node → Thin := Build.fold (make text) keeps

theorem fold_eq (n : Node) :
    fold text n = .node n.kind (n.nameNode?.map text) n.label.start n.label.stop
      (if (n.children.filter keeps).isEmpty then none
        else some ((n.children.filter keeps).map (fold text))) := by
  rw [fold, Build.fold_eq, make, List.isEmpty_map]

theorem children_fold (n : Node) :
    Branching.children (fold text n) = (n.children.filter keeps).map (fold text) := by
  rw [fold_eq]
  cases n.children.filter keeps <;> rfl

theorem ofNode?_eq (root : Node) :
    ofNode? text root = if keeps root then some (fold text root) else none :=
  Build.bottomUp_eq (make text) keeps root

end Thin

/-- There is no thin tree just when its root is dropped. Otherwise its nodes in pre-order are those of the
visit that are kept with all nodes above them, and they stand below each other as in the concrete tree. A
thin node has the kind and the place of the concrete node, the text of the name child as its name, and no
list of children if none of them is kept. -/
theorem thin_is_pruned (text : Node → String) (root : Node) :
    (Thin.ofNode? text root = none ↔ root.label.named = false ∨ root.kind ∈ Thin.commentKinds) ∧
      (outline root).map Prod.snd = root.visit ∧
      outline (Concrete.ofNode text root) =
        (outline root).map (Prod.map (List.map (Concrete.ofNode text)) (Concrete.ofNode text)) ∧
      ∀ t, Thin.ofNode? text root = some t → ∃ thin : Node → Thin,
        outline t =
          ((outline root).filter (isReached Thin.keeps)).map (Prod.map (List.map thin) thin) ∧
        ∀ n, ∃ thins,
          thin n = .node n.kind (n.nameNode?.map text) n.label.start n.label.stop thins ∧
          (thins = none ↔ ∀ c ∈ n.children, Thin.keeps c = false) ∧
          Concrete.ofNode text n = .node n.kind (text n) n.label.start n.label.stop
            (n.children.map (Concrete.ofNode text)) := by
  refine ⟨?_, Node.map_snd_outline root, Concrete.outline_ofNode text root, fun t ht => ?_⟩
  · rw [Thin.ofNode?_eq, ← Thin.keeps_eq_false_iff]
    cases Thin.keeps root <;> simp
  · rw [Thin.ofNode?_eq] at ht
    obtain ⟨hkeep, ht⟩ := Option.ite_none_right_eq_some.mp ht
    cases ht
    refine ⟨Thin.fold text, ?_, fun n => ⟨_, Thin.fold_eq text n, ?_, Concrete.ofNode_eq text n⟩⟩
    · have hall : [root].all Thin.keeps := by rw [List.all_cons, hkeep]; rfl
      exact outlineUnder_map (Thin.children_fold text) hall
    · simp [List.filter_eq_nil_iff]

end CodeIndex
