import CodeIndex.Proofs.Syntax.Outline
import CodeIndex.Syntax.Listing

/-!
# CodeIndex.Proofs.Syntax.Listing

Listings and the trees that they hold.

* `isComplete`: a listing holds so many trees, judged by its child counts alone. `isComplete_ofNode` says that
  the listing of a tree holds this one tree.
* `length_forestFrom`, `ofNodes_forestFrom`: a complete listing is the listing of its trees, where every node
  has the number of its place.
* `ofNode_eq`: the listing of a tree has an entry for each node, in pre-order.
-/

namespace CodeIndex
namespace Listing

open Node

/-- Whether the child counts are those of so many trees, one after the other. Each count is that of the next
tree that is awaited, and its children are awaited before the others. -/
def isComplete : Nat → List Nat → Bool
  | 0, [] => true
  | 0, _ :: _ => false
  | _ + 1, [] => false
  | awaited + 1, count :: counts => isComplete (count + awaited) counts

def counts (entries : List Entry) : List Nat := entries.map Entry.childCount

/-- The entries with the numbers of their places, which begin with a number. -/
def numbered (number : Nat) (entries : List Entry) : List Entry :=
  (entries.zipIdx number).map fun p => { p.1 with label := { p.1.label with number := p.2 } }

theorem counts_numbered (number : Nat) (entries : List Entry) :
    counts (numbered number entries) = counts entries := by
  have h := congrArg counts (List.zipIdx_map_fst number entries)
  rw [counts, List.map_map] at h
  rw [counts, numbered, List.map_map]
  exact h

theorem length_numbered (number : Nat) (entries : List Entry) :
    (numbered number entries).length = entries.length := by
  rw [numbered, List.length_map, List.length_zipIdx]

theorem getElem?_numbered (number : Nat) (entries : List Entry) (i : Nat) :
    (numbered number entries)[i]? =
      entries[i]?.map fun e => { e with label := { e.label with number := number + i } } := by
  rw [numbered, List.getElem?_map, List.getElem?_zipIdx, Option.map_map]
  rfl

theorem map_number_numbered (number : Nat) (entries : List Entry) :
    (numbered number entries).map (fun e => e.label.number) =
      List.range' number entries.length := by
  rw [numbered, List.map_map]
  exact List.zipIdx_map_snd number entries

/-! ## From listings to trees -/

theorem ofNodes_append (ns ms : List Node) : ofNodes (ns ++ ms) = ofNodes ns ++ ofNodes ms := by
  induction ns with
  | nil => rfl
  | cons n ns ih => rw [List.cons_append, ofNodes, ofNodes, ih, List.append_assoc]

variable {entries : List Entry} {awaited : Nat}

theorem length_forestFrom (complete : isComplete awaited (counts entries) = true) :
    ∀ number, (forestFrom number entries).length = awaited := by
  induction entries generalizing awaited with
  | nil =>
    cases awaited with
    | zero => exact fun _ => rfl
    | succ awaited => cases complete
  | cons e entries ih =>
    cases awaited with
    | zero => cases complete
    | succ awaited =>
      intro number
      rw [forestFrom, List.length_cons, List.length_drop, ih complete, Nat.add_sub_cancel_left]

theorem ofNodes_forestFrom (complete : isComplete awaited (counts entries) = true) :
    ∀ number, ofNodes (forestFrom number entries) = numbered number entries := by
  induction entries generalizing awaited with
  | nil => exact fun _ => rfl
  | cons e entries ih =>
    cases awaited with
    | zero => cases complete
    | succ awaited =>
      intro number
      have complete : isComplete (e.childCount + awaited) (counts entries) = true := complete
      have later := length_forestFrom complete (number + 1)
      -- the trees that follow are the children and the trees behind them
      have children : ((forestFrom (number + 1) entries).take e.childCount).length = e.childCount := by
        rw [List.length_take, later]
        exact Nat.min_eq_left (Nat.le_add_right ..)
      rw [forestFrom, ofNodes, ofNode, children, List.cons_append, ← ofNodes_append,
        List.take_append_drop, ih complete]
      rfl

/-! ## From trees to listings -/

def entryOf (n : Node) : Entry := ⟨n.label, n.children.length⟩

theorem ofNodes_eq_flatMap (ns : List Node) : ofNodes ns = ns.flatMap ofNode := by
  induction ns with
  | nil => rfl
  | cons n ns ih => rw [ofNodes, List.flatMap_cons, ih]

theorem ofNode_eq (n : Node) : ofNode n = n.preorder.map entryOf := by
  induction n using Branching.induct with
  | node n ih =>
    obtain ⟨l, cs⟩ := n
    have below : ∀ c ∈ cs, ofNode c = c.preorder.map entryOf := ih
    rw [ofNode, ofNodes_eq_flatMap, preorder, preorderAll_eq_flatMap, List.map_cons, List.map_flatMap,
      List.flatMap_congr below]
    rfl

theorem ofNodes_eq (ns : List Node) : ofNodes ns = (preorderAll ns).map entryOf := by
  rw [ofNodes_eq_flatMap, preorderAll_eq_flatMap, List.map_flatMap,
    List.flatMap_congr fun n _ => ofNode_eq n]

theorem isComplete_each {cs : List Node}
    (each : ∀ c ∈ cs, ∀ awaited rest,
      isComplete (awaited + 1) (counts (ofNode c) ++ rest) = isComplete awaited rest)
    (awaited : Nat) (rest : List Nat) :
    isComplete (cs.length + awaited) (counts (ofNodes cs) ++ rest) = isComplete awaited rest := by
  induction cs with
  | nil => rw [List.length_nil, Nat.zero_add, ofNodes, counts, List.map_nil, List.nil_append]
  | cons c cs ih =>
    rw [List.forall_mem_cons] at each
    have first := each.1 (cs.length + awaited) (counts (ofNodes cs) ++ rest)
    rw [ih each.2, ← List.append_assoc] at first
    rw [List.length_cons, Nat.add_right_comm, ofNodes, counts, List.map_append]
    exact first

/-- A tree that is listed is one that is awaited no longer. -/
theorem isComplete_append (n : Node) (awaited : Nat) (rest : List Nat) :
    isComplete (awaited + 1) (counts (ofNode n) ++ rest) = isComplete awaited rest := by
  induction n using Branching.induct generalizing awaited rest with
  | node n ih =>
    obtain ⟨l, cs⟩ := n
    exact isComplete_each ih awaited rest

theorem isComplete_ofNode (n : Node) : isComplete 1 (counts (ofNode n)) = true := by
  have h := isComplete_append n 0 []
  rwa [List.append_nil] at h

end Listing
end CodeIndex
