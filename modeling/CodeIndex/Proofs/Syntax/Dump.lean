import CodeIndex.Syntax.Dump
import Mathlib.Data.List.Nodup

/-!
# CodeIndex.Proofs.Syntax.Dump

The stack of nodes leaves cells that stand for the data of the tree by recursion.

* `Holds`: a cell and the cells behind it hold a tree.
* `fill_holds`: at the end every node that was on the stack is held at its place. A step changes no other
  cell that is there.
* `data_eq`: the data of a tree is what any function gives that is defined by recursion on it.
-/

namespace CodeIndex
namespace Dump

variable {α : Type} {m : Model α}

/-! ## Adding children -/

theorem length_addChildren (cs : List α) (place : Nat) (cells : List Cell) :
    (m.addChildren cs place cells).length = cells.length + cs.length := by
  simp [Model.addChildren]

theorem lt_length_addChildren {place : Nat} {cells : List Cell} (h : place < cells.length)
    (cs : List α) (parent : Nat) : place < (m.addChildren cs parent cells).length := by
  rw [length_addChildren]
  omega

theorem getElem?_addChildren_self {a : α} {cells : List Cell} {place : Nat}
    (h : cells[place]? = some (m.cell a)) (cs : List α) :
    (m.addChildren cs place cells)[place]? =
      some ⟨m.fields a, some (List.range' cells.length cs.length)⟩ := by
  obtain ⟨hlt, -⟩ := List.getElem?_eq_some_iff.mp h
  rw [Model.addChildren, List.getElem?_append_left (by simpa using hlt), List.getElem?_modify_eq, h]
  rfl

theorem getElem?_addChildren_of_ne {cells : List Cell} {place other : Nat}
    (hlt : other < cells.length) (hne : other ≠ place) (cs : List α) :
    (m.addChildren cs place cells)[other]? = cells[other]? := by
  rw [Model.addChildren, List.getElem?_append_left (by simpa using hlt),
    List.getElem?_modify_ne _ _ hne.symm]

theorem getElem?_addChildren_child {cs : List α} {i : Nat} {c : α} (h : cs[i]? = some c)
    (place : Nat) (cells : List Cell) :
    (m.addChildren cs place cells)[cells.length + i]? = some (m.cell c) := by
  rw [Model.addChildren, List.getElem?_append_right (by simp)]
  simp [h]

/-! ## Filling the cells -/

inductive Holds (m : Model α) (cells : List Cell) : α → Nat → Prop where
  | leaf {a : α} {place : Nat} : m.children? a = none → cells[place]? = some (m.cell a) →
      Holds m cells a place
  | inner {a : α} {place first : Nat} {cs : List α} : m.children? a = some cs →
      cells[place]? = some ⟨m.fields a, some (List.range' first cs.length)⟩ → place < first →
      (∀ i c, cs[i]? = some c → Holds m cells c (first + i)) → Holds m cells a place

/-- Every node of the stack has a cell of its own, without children. -/
structure Ready (m : Model α) (stack : List (α × Nat)) (cells : List Cell) : Prop where
  apart : (stack.map Prod.snd).Nodup
  fresh : ∀ a place, (a, place) ∈ stack → cells[place]? = some (m.cell a)

theorem Ready.lt {stack : List (α × Nat)} {cells : List Cell} (h : Ready m stack cells) {a : α}
    {place : Nat} (hm : (a, place) ∈ stack) : place < cells.length :=
  (List.getElem?_eq_some_iff.mp (h.fresh a place hm)).1

theorem Ready.tail {a : α} {place : Nat} {stack : List (α × Nat)} {cells : List Cell}
    (h : Ready m ((a, place) :: stack) cells) : Ready m stack cells where
  apart := (List.nodup_cons.mp h.apart).2
  fresh := fun b q hm => h.fresh b q (List.mem_cons_of_mem _ hm)

theorem Ready.children {a : α} {place : Nat} {stack : List (α × Nat)} {cells : List Cell}
    (h : Ready m ((a, place) :: stack) cells) (cs : List α) :
    Ready m ((cs.zipIdx cells.length).reverse ++ stack) (m.addChildren cs place cells) := by
  obtain ⟨hnot, hnodup⟩ := List.nodup_cons.mp h.apart
  constructor
  · rw [List.map_append, List.map_reverse, List.zipIdx_map_snd]
    refine List.Nodup.append (List.nodup_reverse.mpr List.nodup_range') hnodup ?_
    intro q hq hq'
    obtain ⟨⟨b, _⟩, hm, rfl⟩ := List.mem_map.mp hq'
    have hlt := h.tail.lt hm
    have hge := (List.mem_range'_1.mp (List.mem_reverse.mp hq)).1
    omega
  · intro b q hm
    rcases List.mem_append.mp hm with hm | hm
    · obtain ⟨hle, hb⟩ := List.mk_mem_zipIdx_iff_le_and_getElem?_sub.mp (List.mem_reverse.mp hm)
      have hq : cells.length + (q - cells.length) = q := by omega
      rw [← hq]
      exact getElem?_addChildren_child hb place cells
    · have hne : q ≠ place := by
        rintro rfl
        exact hnot (List.mem_map.mpr ⟨(b, q), hm, rfl⟩)
      rw [getElem?_addChildren_of_ne (h.tail.lt hm) hne]
      exact h.tail.fresh b q hm

theorem fill_of_none {a : α} (h : m.children? a = none) (place : Nat) (stack : List (α × Nat))
    (cells : List Cell) : fill m ((a, place) :: stack) cells = fill m stack cells := by
  rw [fill]
  split
  · rfl
  · rename_i h'
    rw [h] at h'
    cases h'

theorem fill_of_some {a : α} {cs : List α} (h : m.children? a = some cs) (place : Nat)
    (stack : List (α × Nat)) (cells : List Cell) :
    fill m ((a, place) :: stack) cells =
      fill m ((cs.zipIdx cells.length).reverse ++ stack) (m.addChildren cs place cells) := by
  rw [fill]
  split
  · rename_i h'
    rw [h] at h'
    cases h'
  · rename_i h'
    rw [h] at h'
    cases h'
    rfl

/-- Children have new places. -/
theorem notMem_children {stack : List (α × Nat)} {cells : List Cell} {place : Nat}
    (hlt : place < cells.length) (hnot : place ∉ stack.map Prod.snd) (cs : List α) :
    place ∉ ((cs.zipIdx cells.length).reverse ++ stack).map Prod.snd := by
  rw [List.map_append, List.map_reverse, List.zipIdx_map_snd, List.mem_append, not_or]
  refine ⟨fun hm => ?_, hnot⟩
  have hge := (List.mem_range'_1.mp (List.mem_reverse.mp hm)).1
  omega

/-- Cells that no node of the stack has stay as they are. -/
theorem fill_keeps {stack : List (α × Nat)} {cells : List Cell} {place : Nat}
    (hlt : place < cells.length) (hnot : place ∉ stack.map Prod.snd) :
    (fill m stack cells)[place]? = cells[place]? := by
  induction stack, cells using fill.induct m with
  | case1 cells => rw [fill]
  | case2 a q stack cells hc ih =>
    rw [List.map_cons, List.mem_cons, not_or] at hnot
    rw [fill_of_none hc]
    exact ih hlt hnot.2
  | case3 a q stack cells cs hc ih =>
    rw [List.map_cons, List.mem_cons, not_or] at hnot
    rw [fill_of_some hc, ih (lt_length_addChildren hlt cs q) (notMem_children hlt hnot.2 cs),
      getElem?_addChildren_of_ne hlt hnot.1]

/-- Every node of the stack is held at its place in the end. -/
theorem fill_holds {stack : List (α × Nat)} {cells : List Cell} (ready : Ready m stack cells) :
    ∀ a place, (a, place) ∈ stack → Holds m (fill m stack cells) a place := by
  induction stack, cells using fill.induct m with
  | case1 cells =>
    intro a place hm
    cases hm
  | case2 b q stack cells hc ih =>
    have hcell := ready.fresh b q (List.mem_cons_self ..)
    have hlt := ready.lt (List.mem_cons_self ..)
    have hnot := (List.nodup_cons.mp ready.apart).1
    intro a place hm
    rw [fill_of_none hc]
    rcases List.mem_cons.mp hm with heq | hm
    · cases heq
      refine .leaf hc ?_
      rw [fill_keeps hlt hnot, hcell]
    · exact ih ready.tail a place hm
  | case3 b q stack cells cs hc ih =>
    have hcell := ready.fresh b q (List.mem_cons_self ..)
    have hlt := ready.lt (List.mem_cons_self ..)
    have hnot := (List.nodup_cons.mp ready.apart).1
    have held := ih (ready.children cs)
    intro a place hm
    rw [fill_of_some hc]
    rcases List.mem_cons.mp hm with heq | hm
    · cases heq
      -- the children are on the stack now, the node itself is not
      refine .inner hc ?_ hlt fun i c hi => held c (cells.length + i) ?_
      · rw [fill_keeps (lt_length_addChildren hlt cs q) (notMem_children hlt hnot cs)]
        exact getElem?_addChildren_self hcell cs
      · refine List.mem_append_left _ (List.mem_reverse.mpr ?_)
        exact List.mk_add_mem_zipIdx_iff_getElem?.mpr hi
    · exact held a place (List.mem_append_right _ hm)

/-! ## The values of the cells -/

theorem Cell.value_congr {c : Cell} {f g : Nat → Value}
    (h : ∀ places, c.children = some places → ∀ p ∈ places, f p = g p) : c.value f = c.value g := by
  unfold Cell.value
  split
  · rfl
  · rename_i places heq
    rw [List.map_congr_left (h places heq)]

theorem getD_later {start place : Nat} (h : start < place) (v : Value) (later : List Value) :
    (v :: later).getD (place - start) .null = later.getD (place - (start + 1)) .null := by
  have hs : place - start = place - (start + 1) + 1 := by omega
  rw [hs, List.getD_cons_succ]

/-- The value of a cell is made from the values at the places of its children, when these come
after it. -/
theorem getElem?_valuesFrom {cells : List Cell} {i : Nat} {c : Cell} (hc : cells[i]? = some c)
    {start : Nat} (later : ∀ places, c.children = some places → ∀ p ∈ places, start + i < p) :
    (valuesFrom start cells)[i]? =
      some (c.value fun place => (valuesFrom start cells).getD (place - start) .null) := by
  -- the places of the children count from the first cell of the whole list, also in the rest of it
  induction cells generalizing start i with
  | nil => cases hc
  | cons d cells ih =>
    rw [valuesFrom]
    cases i with
    | zero =>
      cases hc
      rw [List.getElem?_cons_zero]
      congr 1
      refine Cell.value_congr fun places hp p hm => ?_
      have hlt : start < p := later places hp p hm
      rw [getD_later hlt]
    | succ i =>
      rw [List.getElem?_cons_succ] at hc ⊢
      have later' : ∀ places, c.children = some places → ∀ p ∈ places, start + 1 + i < p := by
        intro places hp p hm
        have hlt := later places hp p hm
        omega
      rw [ih hc later']
      congr 1
      refine Cell.value_congr fun places hp p hm => ?_
      have hlt := later' places hp p hm
      rw [getD_later (by omega)]

/-- A function that is defined by recursion on the tree. -/
def Model.Recursive (m : Model α) (f : α → Value) : Prop :=
  ∀ a, f a = .obj (m.fields a ++
    match m.children? a with
    | none => []
    | some cs => [("children", .arr (cs.map f))])

theorem Holds.value {f : α → Value} (hf : m.Recursive f) {cells : List Cell} {a : α} {place : Nat}
    (h : Holds m cells a place) : (values cells)[place]? = some (f a) := by
  induction h with
  | @leaf a place hc hcell =>
    rw [values, getElem?_valuesFrom hcell (by simp [Model.cell]), hf, hc]
    rfl
  | @inner a place first cs hc hcell hlt _ ih =>
    have later : ∀ p ∈ List.range' first cs.length, 0 + place < p := by
      intro p hp
      have hge := (List.mem_range'_1.mp hp).1
      omega
    have hvalues : (List.range' first cs.length).map
        (fun p => (valuesFrom 0 cells).getD (p - 0) .null) = cs.map f := by
      refine List.ext_getElem? fun i => ?_
      rw [List.getElem?_map, List.getElem?_map]
      cases hi : cs[i]? with
      | none =>
        have hle := List.getElem?_eq_none_iff.mp hi
        rw [List.getElem?_eq_none (by simpa using hle)]
        rfl
      | some c =>
        obtain ⟨hlt, -⟩ := List.getElem?_eq_some_iff.mp hi
        have hvalue := ih i c hi
        rw [List.getElem?_range' hlt, Nat.one_mul, Option.map_some, Nat.sub_zero, List.getD,
          ← values, hvalue]
        rfl
    rw [values, getElem?_valuesFrom hcell fun places hp p hm => by cases hp; exact later p hm, hf, hc]
    dsimp only [Cell.value]
    rw [hvalues]

theorem data_eq {f : α → Value} (hf : m.Recursive f) (root : α) : data m root = f root := by
  have ready : Ready m [(root, 0)] [m.cell root] := by
    refine ⟨by simp, fun a place hm => ?_⟩
    cases List.mem_singleton.mp hm
    rfl
  have hroot := (fill_holds ready root 0 (List.mem_singleton.mpr rfl)).value hf
  rw [data, List.headD_eq_head?_getD, List.head?_eq_getElem?, hroot]
  rfl

end Dump
end CodeIndex
