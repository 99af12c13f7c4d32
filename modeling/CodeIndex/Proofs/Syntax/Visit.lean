import CodeIndex.Proofs.Syntax.Listing
import Mathlib.Data.List.Nodup
import Mathlib.Logic.Relation

/-!
# CodeIndex.Proofs.Syntax.Visit

The visit of a tree from a stack, turn by turn.

* `turn`: the first node of the stack makes way for its children. `preorderAll_turns` is the invariant: what
  the stack holds, with all that is below, is what has not been visited.
* `visitFrom_getElem?`, `turns_eq_nil_iff`: the visit is made of the nodes that come first on the stack, and
  it ends after as many turns as there are nodes.
* `preorder_isPrefix_drop`, `numbers_of_place`: in a pre-order the nodes below a node follow it directly.
* `Visited`: what there is to say of the visit of a node. It follows from the numbers (`visited_of_numbers`).
* `visit_consecutive`: the visit of any node of a listing.
-/

namespace CodeIndex
namespace Node

/-! ## Turns -/

def turn : List Node → List Node
  | [] => []
  | n :: stack => n.children ++ stack

theorem head?_preorderAll (stack : List Node) : (preorderAll stack).head? = stack.head? := by
  cases stack with
  | nil => rfl
  | cons n stack => rw [preorderAll, preorder_eq, List.cons_append, List.head?_cons, List.head?_cons]

theorem preorderAll_eq_nil {stack : List Node} : preorderAll stack = [] ↔ stack = [] := by
  rw [← List.head?_eq_none_iff, head?_preorderAll, List.head?_eq_none_iff]

theorem length_preorderAll (stack : List Node) : (preorderAll stack).length = sizeAll stack := by
  induction stack using visitFrom.induct with
  | case1 => rfl
  | case2 n stack ih =>
    obtain ⟨l, cs⟩ := n
    rw [preorderAll_append, List.length_append, sizeAll_append, children_node] at ih
    rw [preorderAll, preorder, List.length_append, List.length_cons, sizeAll, size]
    omega

theorem preorderAll_turn (stack : List Node) :
    preorderAll (turn stack) = (preorderAll stack).drop 1 := by
  cases stack with
  | nil => rfl
  | cons n stack => rw [turn, preorderAll_append, preorderAll, preorder_eq, List.cons_append]; rfl

/-- The stack holds what has not been visited. -/
theorem preorderAll_turns (stack : List Node) (k : Nat) :
    preorderAll (turn^[k] stack) = (preorderAll stack).drop k := by
  induction k with
  | zero => rfl
  | succ k ih => rw [Function.iterate_succ_apply', preorderAll_turn, ih, List.drop_drop]

theorem visitFrom_getElem? (stack : List Node) (k : Nat) :
    (visitFrom stack)[k]? = (turn^[k] stack).head? := by
  rw [visitFrom_eq, ← head?_preorderAll, preorderAll_turns, List.head?_drop]

theorem turns_eq_nil_iff (stack : List Node) (k : Nat) :
    turn^[k] stack = [] ↔ sizeAll stack ≤ k := by
  rw [← preorderAll_eq_nil, preorderAll_turns, List.drop_eq_nil_iff, length_preorderAll]

/-! ## Places -/

theorem preorderAll_singleton (n : Node) : preorderAll [n] = n.preorder :=
  List.append_nil n.preorder

theorem flatMap_visit (ns : List Node) : ns.flatMap visit = preorderAll ns := by
  rw [preorderAll_eq_flatMap]
  exact List.flatMap_congr fun n _ => visit_eq n

theorem length_preorder (n : Node) : n.preorder.length = n.size := by
  rw [← preorderAll_singleton, length_preorderAll]
  rfl

/-- When the turn of a node comes, what is below it is at the top of the stack. -/
theorem preorder_isPrefix_drop {ns : List Node} {n : Node} {i : Nat} (hn : (preorderAll ns)[i]? = some n) :
    n.preorder <+: (preorderAll ns).drop i := by
  have top : (turn^[i] ns).head? = some n := by
    rw [← head?_preorderAll, preorderAll_turns, List.head?_drop, hn]
  obtain ⟨stack, hstack⟩ := List.head?_eq_some_iff.mp top
  rw [← preorderAll_turns, hstack, preorderAll]
  exact List.prefix_append ..

theorem preorder_eq_take {root n : Node} {i : Nat} (hn : root.preorder[i]? = some n) :
    n.preorder = (root.preorder.drop i).take n.size := by
  rw [← preorderAll_singleton root] at hn ⊢
  rw [← length_preorder]
  exact List.prefix_iff_eq_take.mp (preorder_isPrefix_drop hn)

def number (n : Node) : Nat := n.label.number

/-- Where the numbers of a tree are consecutive, so are those of each tree in it. -/
theorem numbers_of_place {root n : Node} {first i : Nat}
    (numbers : root.preorder.map number = List.range' first root.size)
    (hn : root.preorder[i]? = some n) :
    n.preorder.map number = List.range' (first + i) n.size := by
  rw [← preorderAll_singleton] at hn
  obtain ⟨later, hlater⟩ := preorder_isPrefix_drop hn
  rw [preorderAll_singleton] at hlater
  have split := congrArg (List.map number) hlater
  rw [List.map_append, List.map_drop, numbers, List.drop_range', Nat.mul_one] at split
  obtain ⟨count, -, hcount, -⟩ := List.range'_eq_append_iff.mp split.symm
  have hsize : n.size = count := by
    have h := congrArg List.length hcount
    rwa [List.length_map, length_preorder, List.length_range'] at h
  rw [hsize, hcount]

section Numbered

variable {n m c : Node} {first a b : Nat}
  (numbers : n.preorder.map number = List.range' first n.size)

include numbers

theorem numbers_below (hm : n.preorder[a]? = some m) :
    m.number = first + a ∧
      (preorderAll m.children).map number = List.range' (m.number + 1) (m.size - 1) := by
  have mine := numbers_of_place numbers hm
  rw [preorder_eq, List.map_cons, eq_comm, List.range'_eq_cons_iff] at mine
  obtain ⟨hnumber, -, below⟩ := mine
  exact ⟨hnumber.symm, hnumber ▸ below⟩

theorem nodup_preorder : n.preorder.Nodup := by
  apply List.Nodup.of_map number
  rw [numbers]
  exact List.nodup_range'

/-- A node has a greater number than its parent. -/
theorem lt_of_mem_children (hm : n.preorder[a]? = some m) (hc : n.preorder[b]? = some c)
    (child : c ∈ m.children) : a < b := by
  obtain ⟨parent, below⟩ := numbers_below numbers hm
  have among : c.number ∈ (preorderAll m.children).map number :=
    List.mem_map_of_mem (mem_preorderAll.mpr ⟨c, child, mem_preorder_self c⟩)
  rw [below, List.mem_range'_1, (numbers_below numbers hc).1] at among
  omega

end Numbered

/-- A node, its children, their children, and so on. -/
def IsBelow (n m : Node) : Prop := Relation.ReflTransGen (fun a b => b ∈ a.children) n m

theorem mem_preorder_iff {n m : Node} : m ∈ n.preorder ↔ IsBelow n m := by
  constructor
  · induction n using Branching.induct with
    | node n ih =>
      intro hm
      rw [preorder_eq, List.mem_cons] at hm
      rcases hm with rfl | hm
      · exact .refl
      · obtain ⟨c, hc, hm⟩ := mem_preorderAll.mp hm
        exact .head hc (ih c hc hm)
  · intro h
    induction h using Relation.ReflTransGen.head_induction_on with
    | refl => exact mem_preorder_self m
    | @head a b hb _ ih =>
      rw [preorder_eq]
      exact List.mem_cons_of_mem a (mem_preorderAll.mpr ⟨b, hb, ih⟩)

/-- The visit of a node with a number. -/
structure Visited (n : Node) (first : Nat) : Prop where
  /-- The loop has one turn for each node, and then its stack is empty. -/
  ends : ∀ k, turn^[k] [n] = [] ↔ n.size ≤ k
  /-- A turn visits the node that comes first on the stack. -/
  next : ∀ k, (turn^[k] [n]).head? = n.visit[k]?
  rest : ∀ k, (turn^[k] [n]).flatMap visit = n.visit.drop k
  numbers : n.visit.map number = List.range' first n.size
  below : ∀ m, m ∈ n.visit ↔ IsBelow n m
  distinct : n.visit.Nodup
  parents : ∀ (a b : Nat) (m c : Node), n.visit[a]? = some m → n.visit[b]? = some c →
    c ∈ m.children → a < b
  blocks : n.visit = n :: n.children.flatMap visit

theorem visited_of_numbers {n : Node} {first : Nat}
    (numbers : n.preorder.map number = List.range' first n.size) : n.Visited first where
  ends := turns_eq_nil_iff [n]
  next k := (visitFrom_getElem? [n] k).symm
  rest k := by rw [flatMap_visit, preorderAll_turns, preorderAll_singleton, visit_eq]
  numbers := by rw [visit_eq, numbers]
  below m := by rw [visit_eq, mem_preorder_iff]
  distinct := by
    rw [visit_eq]
    exact nodup_preorder numbers
  parents := by
    rw [visit_eq]
    exact fun a b m c => lt_of_mem_children numbers
  blocks := by rw [flatMap_visit, visit_eq, preorder_eq]

end Node

open Node

/-- A complete listing of one tree, and the node at any of its places:

* the node is that of the entry there, with as many children, and the entries from there on, one for each node
  of its subtree, are again the listing of one tree;
* the loop that visits it has as many turns, and visits the nodes with the numbers from its own on, in order;
* these are all nodes below it, each once, no node before its parent, and child by child with all that is below
  the child. -/
theorem visit_consecutive {entries : List Entry}
    (complete : Listing.isComplete 1 (Listing.counts entries) = true) :
    ∃ root, Listing.tree? entries = some root ∧ root.size = entries.length ∧
      ∀ (i : Nat) (e : Entry), entries[i]? = some e → ∃ n, root.preorder[i]? = some n ∧
        n.label = { e.label with number := i } ∧ n.children.length = e.childCount ∧
        Listing.isComplete 1 (((Listing.counts entries).drop i).take n.size) = true ∧
        n.Visited i := by
  obtain ⟨root, hforest⟩ := List.length_eq_one_iff.mp (Listing.length_forestFrom complete 0)
  have listing : root.preorder.map Listing.entryOf = Listing.numbered 0 entries := by
    rw [← Listing.ofNodes_forestFrom complete 0, hforest, Listing.ofNodes_eq, preorderAll_singleton]
  have size : root.size = entries.length := by
    have h := congrArg List.length listing
    rwa [List.length_map, length_preorder, Listing.length_numbered] at h
  have numbers : root.preorder.map number = List.range' 0 root.size := by
    rw [size, ← Listing.map_number_numbered 0 entries, ← listing, List.map_map]
    rfl
  refine ⟨root, by rw [Listing.tree?, Listing.forest, hforest]; rfl, size, fun i e he => ?_⟩
  have place := congrArg (·[i]?) listing
  rw [List.getElem?_map, Listing.getElem?_numbered, he, Option.map_some, Nat.zero_add] at place
  obtain ⟨n, hn, hentry⟩ := Option.map_eq_some_iff.mp place
  have counts : ((Listing.counts entries).drop i).take n.size = Listing.counts (Listing.ofNode n) := by
    rw [Listing.ofNode_eq, preorder_eq_take hn, ← Listing.counts_numbered 0 entries, ← listing]
    simp only [Listing.counts, List.map_drop, List.map_take]
  have mine := numbers_of_place numbers hn
  rw [Nat.zero_add] at mine
  refine ⟨n, hn, congrArg Entry.label hentry, congrArg Entry.childCount hentry, ?_,
    visited_of_numbers mine⟩
  rw [counts]
  exact Listing.isComplete_ofNode n

/-- The second place of a tree whose root has two children, the first of them with two again. -/
theorem visit_consecutive_nested :
    let entry (count : Nat) : Entry := ⟨default, count⟩
    let entries := [2, 2, 0, 0, 0].map entry
    Listing.isComplete 1 (Listing.counts entries) = true ∧ entries[1]? = some (entry 2) ∧
      ∃ root n, Listing.tree? entries = some root ∧ root.preorder[1]? = some n ∧
        n.visit.map number = [1, 2, 3] ∧ turn^[3] [n] = [] := by
  intro entry entries
  have complete : Listing.isComplete 1 (Listing.counts entries) = true := rfl
  have hentry : entries[1]? = some (entry 2) := rfl
  obtain ⟨root, htree, -, places⟩ := visit_consecutive complete
  obtain ⟨n, hn, -, -, -, visited⟩ := places 1 (entry 2) hentry
  have size : n.size = 3 := by
    cases htree
    cases hn
    rfl
  have numbers := visited.numbers
  rw [size] at numbers
  exact ⟨complete, hentry, root, n, htree, hn, numbers, (visited.ends 3).mpr (Nat.le_of_eq size)⟩

end CodeIndex
