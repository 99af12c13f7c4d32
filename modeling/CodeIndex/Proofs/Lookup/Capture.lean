import CodeIndex.Lookup.InDocument
import Mathlib.Data.List.Basic

/-!
# CodeIndex.Proofs.Lookup.Capture

The captures of a query are all nodes that the matcher reports, sorted by the byte where they start.

* `Occurrence`: a reported node with its place in the report: its match, its capture in the match, and its
  own place in the capture. The same node may occur many times.
* `occurrences`: all occurrences in the order of their places.
* `pairwise_mergeSort_stable`: sorting keeps the order of whatever it takes as equal.
* `captures_sorted`: the captures are the occurrences by start byte, and by place where bytes are the same.
-/

namespace CodeIndex

/-- Elements that sort as equal keep a relation that earlier ones have to later ones. -/
theorem pairwise_mergeSort_stable {α : Type} {le : α → α → Bool} {R : α → α → Prop}
    (trans : ∀ a b c, le a b → le b c → le a c) (total : ∀ a b, le a b || le b a) {as : List α}
    (ordered : as.Pairwise R) :
    (as.mergeSort le).Pairwise fun a b => le a b ∧ (le b a → R a b) := by
  induction as with
  | nil => simp
  | cons a as ih =>
    obtain ⟨before, behind, hcons, has, hbefore⟩ := List.mergeSort_cons trans total a as
    have sorted := List.pairwise_mergeSort trans total (a :: as)
    obtain ⟨head, tail⟩ := List.pairwise_cons.mp ordered
    have rest := ih tail
    rw [has, List.pairwise_append] at rest
    rw [hcons, List.pairwise_append, List.pairwise_cons] at sorted
    obtain ⟨-, ⟨later, -⟩, earlier⟩ := sorted
    have fromHead : ∀ b ∈ behind, R a b := fun b hb =>
      head b (List.mem_mergeSort.mp (by rw [has]; exact List.mem_append_right _ hb))
    rw [hcons, List.pairwise_append, List.pairwise_cons]
    refine ⟨rest.1, ⟨fun b hb => ⟨later b hb, fun _ => fromHead b hb⟩, rest.2.1⟩, fun b hb c hc => ?_⟩
    rcases List.mem_cons.mp hc with rfl | hc
    · -- what comes before the new element starts earlier
      have strict := hbefore b hb
      exact ⟨earlier b hb c List.mem_cons_self, fun hle => by simp [hle] at strict⟩
    · exact rest.2.2 b hb c hc

namespace Capture

structure Occurrence where
  found : Nat
  capture : Nat
  position : Nat
  name : String
  node : Node

namespace Occurrence

def pair (o : Occurrence) : String × Node := (o.name, o.node)

def startByte (o : Occurrence) : Nat := o.node.label.startByte

/-- This node is reported at this place under this name. -/
def IsIn (o : Occurrence) (reported : List Match) : Prop :=
  ∃ m nodes, reported[o.found]? = some m ∧ m[o.capture]? = some (o.name, nodes) ∧
    nodes[o.position]? = some o.node

/-- Match by match, capture by capture, node by node. -/
def Precedes (o p : Occurrence) : Prop :=
  o.found < p.found ∨ o.found = p.found ∧
    (o.capture < p.capture ∨ o.capture = p.capture ∧ o.position < p.position)

/-- By start byte, and by place where the bytes are the same. -/
def Before (o p : Occurrence) : Prop :=
  o.startByte < p.startByte ∨ o.startByte = p.startByte ∧ o.Precedes p

end Occurrence

/-- All occurrences in the order of their places. -/
def occurrences (reported : List Match) : List Occurrence :=
  reported.zipIdx.flatMap fun m => m.1.zipIdx.flatMap fun c => c.1.2.zipIdx.map fun n =>
    ⟨m.2, c.2, n.2, c.1.1, n.1⟩

theorem mem_occurrences {o : Occurrence} {reported : List Match} :
    o ∈ occurrences reported ↔ o.IsIn reported := by
  simp only [occurrences, List.mem_flatMap, List.mem_map, Prod.exists, List.mem_zipIdx_iff_getElem?]
  constructor
  · rintro ⟨m, i, hm, name, nodes, j, hc, n, k, hn, rfl⟩
    exact ⟨m, nodes, hm, hc, hn⟩
  · rintro ⟨m, nodes, hm, hc, hn⟩
    exact ⟨m, o.found, hm, o.name, nodes, o.capture, hc, o.node, o.position, hn, rfl⟩

theorem flatMap_zipIdx {α β : Type} (as : List α) (f : α → List β) :
    (as.zipIdx.flatMap fun p => f p.1) = as.flatMap f := by
  rw [← List.flatMap_map Prod.fst f, List.zipIdx_map_fst]

theorem map_pair_occurrences (reported : List Match) :
    (occurrences reported).map Occurrence.pair = pairs reported := by
  have named : ∀ c : String × List Node,
      (c.2.zipIdx.map fun n => (c.1, n.1)) = c.2.map fun n => (c.1, n) := fun c => by
    have bare := congrArg (List.map fun n => (c.1, n)) (List.zipIdx_map_fst 0 c.2)
    rwa [List.map_map] at bare
  simp only [occurrences, List.map_flatMap, List.map_map, Function.comp_def, Occurrence.pair, named]
  rw [flatMap_zipIdx reported fun m => m.zipIdx.flatMap fun c => c.1.2.map fun n => (c.1.1, n)]
  exact List.flatMap_congr fun m _ => flatMap_zipIdx m fun c => c.2.map fun n => (c.1, n)

theorem pairwise_zipIdx {α : Type} (as : List α) : as.zipIdx.Pairwise fun p q => p.2 < q.2 := by
  rw [← List.pairwise_map (f := Prod.snd) (R := (· < ·)), List.zipIdx_map_snd]
  exact List.pairwise_lt_range'

theorem precedes_occurrences (reported : List Match) :
    (occurrences reported).Pairwise Occurrence.Precedes := by
  refine List.pairwise_flatMap.mpr ⟨fun m _ => List.pairwise_flatMap.mpr ⟨fun c _ => ?_, ?_⟩, ?_⟩
  · rw [List.pairwise_map]
    exact (pairwise_zipIdx c.1.2).imp fun h => .inr ⟨rfl, .inr ⟨rfl, h⟩⟩
  · refine (pairwise_zipIdx m.1).imp fun h o ho p hp => ?_
    obtain ⟨n, -, rfl⟩ := List.mem_map.mp ho
    obtain ⟨n', -, rfl⟩ := List.mem_map.mp hp
    exact .inr ⟨rfl, .inl h⟩
  · refine (pairwise_zipIdx reported).imp fun h o ho p hp => ?_
    obtain ⟨c, -, ho⟩ := List.mem_flatMap.mp ho
    obtain ⟨n, -, rfl⟩ := List.mem_map.mp ho
    obtain ⟨c', -, hp⟩ := List.mem_flatMap.mp hp
    obtain ⟨n', -, rfl⟩ := List.mem_map.mp hp
    exact .inl h

/-! ## Sorting -/

theorem before_sorted (reported : List Match) :
    ((occurrences reported).mergeSort fun o p => startsNoLater o.pair p.pair).Pairwise
      Occurrence.Before := by
  have trans : ∀ o p q : Occurrence, startsNoLater o.pair p.pair → startsNoLater p.pair q.pair →
      startsNoLater o.pair q.pair := by
    simp only [startsNoLater, decide_eq_true_eq]
    omega
  have total : ∀ o p : Occurrence, startsNoLater o.pair p.pair || startsNoLater p.pair o.pair := by
    simp only [startsNoLater, Bool.or_eq_true, decide_eq_true_eq]
    omega
  have stable := pairwise_mergeSort_stable trans total (precedes_occurrences reported)
  refine stable.imp fun {o p} h => ?_
  simp only [startsNoLater, decide_eq_true_eq] at h
  obtain ⟨hle, hsame⟩ := h
  rcases Nat.lt_or_eq_of_le hle with hlt | heq
  · exact .inl hlt
  · exact .inr ⟨heq, hsame (Nat.le_of_eq heq.symm)⟩

/-- A search fails just when the compiler finds something wrong with the query for the grammar of the
document, and the error tells what. Otherwise the captures are all nodes that the matcher reports, each as
often as it does. They stand in the order of their start bytes, and where these are the same in the order of
the report: match by match, capture by capture, node by node. -/
theorem captures_sorted (queryFault? : Grammar → String → Option String) (d : Document)
    (query : String) :
    (∀ e, list queryFault? d query = .error e ↔
      ∃ diagnostic, queryFault? d.grammar query = some diagnostic ∧ e = .badQuery query diagnostic) ∧
    (queryFault? d.grammar query = none → ∃ sorted : List Occurrence,
      list queryFault? d query = .ok (sorted.map fun o =>
        ⟨o.name, d.textOf o.node, o.node.label.start, o.node.label.stop⟩) ∧
      (sorted.map Occurrence.pair).Perm
        ((d.tree.matchesOf query).flatMap fun m => m.flatMap fun c => c.2.map fun n => (c.1, n)) ∧
      (∀ o, o ∈ sorted ↔ o.IsIn (d.tree.matchesOf query)) ∧ sorted.Pairwise Occurrence.Before) := by
  rw [list]
  refine ⟨fun e => ?_, fun hquery => ?_⟩
  · cases queryFault? d.grammar query with
    | some diagnostic => simp [eq_comm]
    | none => simp
  · let le := fun o p : Occurrence => startsNoLater o.pair p.pair
    refine ⟨(occurrences (d.tree.matchesOf query)).mergeSort le, ?_, ?_, fun o => ?_, before_sorted _⟩
    · have hmap := List.map_mergeSort (r := le) (s := startsNoLater) (f := Occurrence.pair)
        (l := occurrences (d.tree.matchesOf query)) fun _ _ _ _ => rfl
      rw [map_pair_occurrences] at hmap
      rw [hquery, ← hmap, List.map_map]
      rfl
    · have hperm := (List.mergeSort_perm (occurrences (d.tree.matchesOf query)) le).map Occurrence.pair
      rwa [map_pair_occurrences] at hperm
    · rw [List.mem_mergeSort, mem_occurrences]

end Capture
end CodeIndex
