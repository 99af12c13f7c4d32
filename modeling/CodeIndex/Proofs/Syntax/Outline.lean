import CodeIndex.Syntax.Concrete
import CodeIndex.Syntax.Thin
import CodeIndex.Syntax.Traversal
import Mathlib.Data.List.Infix

/-!
# CodeIndex.Proofs.Syntax.Outline

The nodes of a tree in pre-order, each with the nodes above it.

* `Branching`: what has children that are smaller. Nodes, concrete trees and thin trees do.
* `outline`: the entries of a tree, a node and the nodes above it, innermost first. How deep a node is, is
  the number of nodes above it.
* `map_snd_outline`: without the nodes above, the outline of a node is the visit from the stack.
* `outlineUnder_map`: when a tree is made from the kept children of every node, its outline is that of the
  node without the entries that a dropped node is part of.
-/

namespace CodeIndex

/-- Elements that give nothing may be left out. -/
theorem flatMap_filter_of_nil {α β : Type} {keep : α → Bool} {g : α → List β} {as : List α}
    (h : ∀ a ∈ as, keep a = false → g a = []) : (as.filter keep).flatMap g = as.flatMap g := by
  induction as with
  | nil => rfl
  | cons a as ih =>
    rw [List.forall_mem_cons] at h
    cases ha : keep a with
    | true => rw [List.filter_cons_of_pos ha, List.flatMap_cons, List.flatMap_cons, ih h.2]
    | false =>
      rw [List.filter_cons_of_neg (by simp [ha]), List.flatMap_cons, h.1 ha, ih h.2, List.nil_append]

class Branching (α : Type) [SizeOf α] where
  children : α → List α
  sizeOf_lt : ∀ {a c : α}, c ∈ children a → sizeOf c < sizeOf a

open Branching

instance : Branching Node where
  children := Node.children
  sizeOf_lt {n c} h := by
    cases n
    have hlt := List.sizeOf_lt_of_mem h
    simp only [Node.children_node, Node.node.sizeOf_spec] at hlt ⊢
    omega

instance : Branching Concrete where
  children := Concrete.children
  sizeOf_lt {a c} h := by
    cases a
    have hlt := List.sizeOf_lt_of_mem h
    simp only [Concrete.children, Concrete.node.sizeOf_spec] at hlt ⊢
    omega

instance : Branching Thin where
  children t := t.children?.getD []
  sizeOf_lt {t c} h := by
    obtain ⟨kind, name, start, stop, children⟩ := t
    cases children with
    | none => cases h
    | some cs =>
      have hlt := List.sizeOf_lt_of_mem h
      simp only [Thin.children?, Option.getD_some, Thin.node.sizeOf_spec, Option.some.sizeOf_spec] at hlt ⊢
      omega

section Outline

variable {α : Type} [SizeOf α] [Branching α]

theorem Branching.induct {motive : α → Prop} (node : ∀ a, (∀ c ∈ children a, motive c) → motive a)
    (a : α) : motive a :=
  node a fun c _ => Branching.induct node c
termination_by sizeOf a
decreasing_by exact sizeOf_lt ‹_›

/-- The entries of a tree that stands below the nodes of `above`. -/
def outlineUnder (above : List α) (a : α) : List (List α × α) :=
  (above, a) :: (children a).attach.flatMap fun c => outlineUnder (a :: above) c.1
termination_by sizeOf a
decreasing_by exact sizeOf_lt c.2

def outline (a : α) : List (List α × α) := outlineUnder [] a

theorem outlineUnder_eq (above : List α) (a : α) :
    outlineUnder above a = (above, a) :: (children a).flatMap (outlineUnder (a :: above)) := by
  rw [outlineUnder]
  simp

theorem mem_outlineUnder {above : List α} {a : α} {e : List α × α} :
    e ∈ outlineUnder above a ↔
      e = (above, a) ∨ ∃ c ∈ children a, e ∈ outlineUnder (a :: above) c := by
  rw [outlineUnder_eq, List.mem_cons, List.mem_flatMap]

/-- Every entry ends with the node at the top and the nodes above that. -/
theorem suffix_of_mem_outlineUnder {a : α} {above : List α} {e : List α × α}
    (h : e ∈ outlineUnder above a) : a :: above <:+ e.2 :: e.1 := by
  induction a using Branching.induct generalizing above with
  | node a ih =>
    rcases mem_outlineUnder.mp h with rfl | ⟨c, hc, he⟩
    · exact List.suffix_rfl
    · exact (List.suffix_cons c (a :: above)).trans (ih c hc he)

/-! ## Dropping nodes -/

variable {keep : α → Bool}

/-- No node of the entry is dropped. -/
def isReached (keep : α → Bool) (e : List α × α) : Bool := (e.2 :: e.1).all keep

theorem filter_isReached_eq_nil {a : α} {above : List α} (h : (a :: above).all keep = false) :
    (outlineUnder above a).filter (isReached keep) = [] := by
  refine List.filter_eq_nil_iff.mpr fun e he hr => ?_
  obtain ⟨b, hb, hdrop⟩ := List.all_eq_false.mp h
  have hkeep := List.all_eq_true.mp hr b ((suffix_of_mem_outlineUnder he).subset hb)
  exact hdrop hkeep

/-- What is reached from a node that is reached: the node, and what is reached from its kept children. -/
theorem filter_isReached_eq {a : α} {above : List α} (h : (a :: above).all keep) :
    (outlineUnder above a).filter (isReached keep) =
      (above, a) :: ((children a).filter keep).flatMap fun c =>
        (outlineUnder (a :: above) c).filter (isReached keep) := by
  have dropped : ∀ c ∈ children a, keep c = false →
      (outlineUnder (a :: above) c).filter (isReached keep) = [] := fun c _ hdrop =>
    filter_isReached_eq_nil (by rw [List.all_cons, hdrop, Bool.false_and])
  have hself : isReached keep (above, a) := h
  rw [outlineUnder_eq, List.filter_cons_of_pos hself, List.filter_flatMap,
    flatMap_filter_of_nil dropped]

theorem all_cons_of_mem_filter {a c : α} {above : List α} (h : (a :: above).all keep)
    (hc : c ∈ (children a).filter keep) : (c :: a :: above).all keep := by
  rw [List.all_cons, (List.mem_filter.mp hc).2, h, Bool.and_self]

variable {β : Type} [SizeOf β] [Branching β] {f : α → β}

theorem outlineUnder_map (hf : ∀ a, children (f a) = ((children a).filter keep).map f) {a : α}
    {above : List α} (h : (a :: above).all keep) :
    outlineUnder (above.map f) (f a) =
      ((outlineUnder above a).filter (isReached keep)).map (Prod.map (List.map f) f) := by
  induction a using Branching.induct generalizing above with
  | node a ih =>
    have kept : ∀ c ∈ (children a).filter keep, outlineUnder (f a :: above.map f) (f c) =
        ((outlineUnder (a :: above) c).filter (isReached keep)).map (Prod.map (List.map f) f) :=
      fun c hc => ih c (List.mem_filter.mp hc).1 (all_cons_of_mem_filter h hc)
    rw [outlineUnder_eq, filter_isReached_eq h, hf, List.flatMap_map, List.flatMap_congr kept,
      List.map_cons, List.map_flatMap, Prod.map]

/-- When no node is dropped, all entries stay. -/
theorem outline_map (hf : ∀ a, children (f a) = (children a).map f) (a : α) :
    outline (f a) = (outline a).map (Prod.map (List.map f) f) := by
  have hkeep : ∀ a, children (f a) = ((children a).filter fun _ => true).map f := fun a => by
    rw [List.filter_true, hf]
  have hall : ∀ e ∈ outline a, isReached (fun _ => true) e = true := fun e _ =>
    List.all_eq_true.mpr fun _ _ => rfl
  have hself : [a].all (fun _ => true) = true := rfl
  have h := outlineUnder_map hkeep hself
  rw [← outline, List.filter_eq_self.mpr hall] at h
  exact h

end Outline

/-! ## The nodes of a syntax tree -/

namespace Node

theorem mem_preorder_self (n : Node) : n ∈ n.preorder := by
  cases n
  exact List.mem_cons_self

theorem mem_preorderAll {n : Node} {ns : List Node} :
    n ∈ preorderAll ns ↔ ∃ c ∈ ns, n ∈ c.preorder := by
  induction ns with
  | nil => simp [preorderAll]
  | cons c ns ih => simp [preorderAll, ih]

theorem mem_preorder_of_child {l : Label} {cs : List Node} {c n : Node} (hc : c ∈ cs)
    (hn : n ∈ c.preorder) : n ∈ (node l cs).preorder :=
  List.mem_cons_of_mem _ (mem_preorderAll.mpr ⟨c, hc, hn⟩)

theorem mem_preorder_trans {a b : Node} (hab : a ∈ b.preorder) :
    ∀ c : Node, b ∈ c.preorder → a ∈ c.preorder
  | .node l cs, hbc => by
    rw [preorder, List.mem_cons] at hbc
    rcases hbc with rfl | hbc
    · exact hab
    · obtain ⟨d, hd, hbd⟩ := mem_preorderAll.mp hbc
      exact mem_preorder_of_child hd (mem_preorder_trans hab d hbd)
termination_by c => c.size
decreasing_by
  have hle := size_le_sizeAll hd
  simp only [size]
  omega

theorem nameNode?_mem {n m : Node} (h : n.nameNode? = some m) : m ∈ n.children := by
  obtain ⟨i, -, hi⟩ := Option.bind_eq_some_iff.mp h
  exact List.mem_of_getElem? hi

theorem preorder_eq (n : Node) : n.preorder = n :: preorderAll n.children := by
  cases n
  rfl

theorem preorderAll_append (ns ms : List Node) :
    preorderAll (ns ++ ms) = preorderAll ns ++ preorderAll ms := by
  induction ns with
  | nil => rfl
  | cons n ns ih => rw [List.cons_append, preorderAll, preorderAll, ih, List.append_assoc]

theorem preorderAll_eq_flatMap (ns : List Node) : preorderAll ns = ns.flatMap preorder := by
  induction ns with
  | nil => rfl
  | cons n ns ih => rw [preorderAll, List.flatMap_cons, ih]

theorem visitFrom_eq (stack : List Node) : visitFrom stack = preorderAll stack := by
  induction stack using visitFrom.induct with
  | case1 => rw [visitFrom]; rfl
  | case2 n stack ih =>
    rw [visitFrom_cons, ih, preorderAll_append, preorderAll, preorder_eq, List.cons_append]

theorem visit_eq (root : Node) : root.visit = root.preorder := by
  rw [visit, visitFrom_eq]
  exact List.append_nil _

theorem map_snd_outlineUnder (above : List Node) (n : Node) :
    (outlineUnder above n).map Prod.snd = n.preorder := by
  induction n using Branching.induct generalizing above with
  | node n ih =>
    rw [outlineUnder_eq, List.map_cons, List.map_flatMap, preorder_eq, preorderAll_eq_flatMap]
    congr 1
    exact List.flatMap_congr fun c hc => ih c hc (n :: above)

theorem map_snd_outline (root : Node) : (outline root).map Prod.snd = root.visit := by
  rw [outline, map_snd_outlineUnder, visit_eq]

end Node
end CodeIndex
