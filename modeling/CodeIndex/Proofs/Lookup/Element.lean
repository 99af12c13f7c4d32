import CodeIndex.Lookup.InDocument
import CodeIndex.Proofs.Syntax.Build
import Mathlib.Data.List.Forall2

/-!
# CodeIndex.Proofs.Lookup.Element

The elements of a kind are the nodes of that kind in the concrete tree.

* `Element.Shows`: what an element says of its node, and how it is called.
* `Excerpt`: what elements and concrete nodes have in common.
* `flatMap_filter_perm`: things that are listed key by key are listed once each.
* `elements_agree`: an element for every node of the kind, in pre-order, as in the concrete tree. The elements
  of all kinds are those of all nodes.
-/

namespace CodeIndex

/-- A place in a source with its text, and the kind of what stands there. -/
structure Excerpt where
  kind : String
  text : String
  start : Point
  stop : Point
deriving DecidableEq

def Concrete.excerpt : Concrete → Excerpt
  | .node kind text start stop _ => ⟨kind, text, start, stop⟩

namespace Element

def excerpt (e : Element) : Excerpt := ⟨e.kind, e.text, e.start, e.stop⟩

/-- The element stands for the node. It is called as the name child says, and anonymous if there is no name
child or its text is empty. -/
structure Shows (d : Document) (e : Element) (n : Node) : Prop where
  excerpt : e.excerpt = ⟨n.kind, d.textOf n, n.label.start, n.label.stop⟩
  named : ∀ m, n.nameNode? = some m → d.textOf m ≠ "" → e.name = d.textOf m
  anonymous : (∀ m, n.nameNode? = some m → d.textOf m = "") → e.name = "(anonymous)"

theorem shows_ofNode (d : Document) (n : Node) : (ofNode d n).Shows d n where
  excerpt := rfl
  named m hm ht := by simp [ofNode, Document.nameOf?, hm, displayName, ht]
  anonymous h := by
    cases hm : n.nameNode? with
    | none => simp [ofNode, Document.nameOf?, hm, displayName, Element.anonymous]
    | some m => simp [ofNode, Document.nameOf?, hm, displayName, h m hm, Element.anonymous]

theorem list_eq (d : Document) (kind : String) :
    list d kind =
      ((outline d.tree.root).filter fun entry => entry.2.kind == kind).map fun entry =>
        ofNode d entry.2 := by
  rw [list, ← Node.map_snd_outline, List.filter_map, List.map_map]
  rfl

theorem shows_list (d : Document) (kind : String) :
    List.Forall₂ (fun e entry => e.Shows d entry.2) (list d kind)
      ((outline d.tree.root).filter fun entry => entry.2.kind == kind) := by
  rw [list_eq, List.forall₂_map_left_iff, List.forall₂_same]
  exact fun entry _ => shows_ofNode d entry.2

end Element

namespace Concrete

theorem excerpt_ofNode (text : Node → String) (n : Node) :
    (ofNode text n).excerpt = ⟨n.kind, text n, n.label.start, n.label.stop⟩ := by
  rw [ofNode_eq, excerpt]

/-- The excerpts of a concrete tree in pre-order. -/
theorem excerpts_ofNode (text : Node → String) (root : Node) :
    ((outline (ofNode text root)).map fun entry => entry.2.excerpt) =
      (outline root).map fun entry =>
        ⟨entry.2.kind, text entry.2, entry.2.label.start, entry.2.label.stop⟩ := by
  rw [outline_ofNode, List.map_map]
  exact List.map_congr_left fun entry _ => excerpt_ofNode text entry.2

end Concrete

/-- Things that are listed key by key, over all of their keys, are all listed once. -/
theorem flatMap_filter_perm {α : Type} (key : α → String) {keys : List String} (distinct : keys.Nodup)
    {as : List α} (all : ∀ a ∈ as, key a ∈ keys) :
    (keys.flatMap fun k => as.filter fun a => key a == k).Perm as := by
  induction keys generalizing as with
  | nil => rw [List.eq_nil_iff_forall_not_mem.mpr fun a ha => List.not_mem_nil (all a ha)]; rfl
  | cons k keys ih =>
    obtain ⟨hnew, distinct⟩ := List.nodup_cons.mp distinct
    -- the other keys find nothing of the first one
    have others : ∀ k' ∈ keys, (as.filter fun a => key a == k') =
        (as.filter fun a => !(key a == k)).filter fun a => key a == k' := by
      intro k' hk'
      have hne : k' ≠ k := fun he => hnew (he ▸ hk')
      rw [List.filter_filter]
      refine List.filter_congr fun a _ => ?_
      by_cases h : key a = k'
      · simp [h, hne]
      · simp [h]
    rw [List.flatMap_cons, List.flatMap_congr others]
    have rest : (keys.flatMap fun k' => (as.filter fun a => !(key a == k)).filter fun a => key a == k').Perm
        (as.filter fun a => !(key a == k)) := ih distinct fun a ha => by
      obtain ⟨ha, hne⟩ := List.mem_filter.mp ha
      exact (List.mem_cons.mp (all a ha)).resolve_left (by simpa using hne)
    exact (rest.append_left _).trans (List.filter_append_perm _ as)

/-- For every kind, each node of this kind has one element, wherever it stands in the tree, and the elements
are in pre-order. Kinds, texts and places are those of the nodes of this kind in the concrete tree, in its
pre-order. The lists of all kinds of the tree, one after the other, have one element for each of its
nodes. -/
theorem elements_agree (d : Document) :
    let nodes := outline d.tree.root
    let concrete := outline (Concrete.ofNode d.textOf d.tree.root)
    (∀ kind, List.Forall₂ (fun e entry => e.Shows d entry.2) (Element.list d kind)
        (nodes.filter fun entry => entry.2.kind == kind) ∧
      (Element.list d kind).map Element.excerpt =
        (concrete.map fun entry => entry.2.excerpt).filter fun excerpt => excerpt.kind == kind) ∧
    ∀ kinds : List String, kinds.Nodup → (∀ entry ∈ nodes, entry.2.kind ∈ kinds) →
      ∃ listed, listed.Perm nodes ∧
        List.Forall₂ (fun e entry => e.Shows d entry.2) (kinds.flatMap (Element.list d)) listed := by
  intro nodes concrete
  refine ⟨fun kind => ⟨Element.shows_list d kind, ?_⟩, fun kinds distinct all => ?_⟩
  · rw [Element.list_eq, Concrete.excerpts_ofNode, List.filter_map, List.map_map]
    rfl
  · refine ⟨_, flatMap_filter_perm (fun entry => entry.2.kind) distinct all, ?_⟩
    clear all distinct
    induction kinds with
    | nil => exact .nil
    | cons kind kinds ih =>
      rw [List.flatMap_cons, List.flatMap_cons]
      exact List.rel_append (Element.shows_list d kind) ih

end CodeIndex
