import CodeIndex.Json.Value

/-!
# CodeIndex.Syntax.Dump

The plain data of a tree, made from an explicit stack, so that the depth of the tree does not matter.
Every node has a cell of its own with its fields. When a node is taken from the stack, cells for its
children are put behind the others, and its own cell gets the list of their places. The last child is
taken first.

* `Model`: the fields of a node of some kind of tree, but its children, and the children.
* `fill`: takes the nodes of the stack, until it is empty.
* `values`: what the cells stand for. The cells of children come after that of their parent.
* `data`: the data of a tree.
-/

namespace CodeIndex
namespace Dump

variable {α : Type}

/-- What nodes amount to, each with one more than its size. -/
def total (size : α → Nat) : List α → Nat
  | [] => 0
  | a :: nodes => size a + 1 + total size nodes

theorem total_append (size : α → Nat) (nodes more : List α) :
    total size (nodes ++ more) = total size nodes + total size more := by
  induction nodes with
  | nil => simp [total]
  | cons a nodes ih =>
    simp only [List.cons_append, total, ih]
    omega

theorem total_reverse (size : α → Nat) (nodes : List α) :
    total size nodes.reverse = total size nodes := by
  induction nodes with
  | nil => rfl
  | cons a nodes ih =>
    simp only [List.reverse_cons, total_append, total, ih]
    omega

theorem total_sizeOf_le [SizeOf α] (nodes : List α) : total sizeOf nodes ≤ sizeOf nodes := by
  induction nodes with
  | nil => simp [total]
  | cons a nodes ih =>
    simp only [total, List.cons.sizeOf_spec]
    omega

structure Model (α : Type) where
  fields : α → List (String × Value)
  /-- A node may have no list of children at all. -/
  children? : α → Option (List α)
  finite : ∃ size : α → Nat, ∀ a cs, children? a = some cs → total size cs ≤ size a

structure Cell where
  fields : List (String × Value)
  /-- The places of the cells of the children. -/
  children : Option (List Nat)

def Model.cell (m : Model α) (a : α) : Cell := ⟨m.fields a, none⟩

/-- How much work nodes are. -/
noncomputable def Model.weight (m : Model α) (nodes : List α) : Nat :=
  total (Classical.choose m.finite) nodes

theorem Model.weight_cons (m : Model α) (a : α) (nodes : List α) :
    m.weight (a :: nodes) = Classical.choose m.finite a + 1 + m.weight nodes := rfl

theorem Model.weight_append (m : Model α) (nodes more : List α) :
    m.weight (nodes ++ more) = m.weight nodes + m.weight more :=
  total_append _ nodes more

theorem Model.weight_reverse (m : Model α) (nodes : List α) :
    m.weight nodes.reverse = m.weight nodes :=
  total_reverse _ nodes

theorem Model.weight_children (m : Model α) {a : α} {cs : List α} (h : m.children? a = some cs) :
    m.weight cs ≤ Classical.choose m.finite a :=
  Classical.choose_spec m.finite a cs h

/-- Makes cells for the children of the node at a place. -/
def Model.addChildren (m : Model α) (cs : List α) (place : Nat) (cells : List Cell) : List Cell :=
  let places := List.range' cells.length cs.length
  cells.modify place (fun c => { c with children := some places }) ++ cs.map m.cell

/-- The nodes of the stack stand with the places of their cells. -/
def fill (m : Model α) : List (α × Nat) → List Cell → List Cell
  | [], cells => cells
  | (a, place) :: stack, cells =>
    match _h : m.children? a with
    | none => fill m stack cells
    | some cs =>
      fill m ((cs.zipIdx cells.length).reverse ++ stack) (m.addChildren cs place cells)
termination_by stack => m.weight (stack.map Prod.fst)
decreasing_by
  · rw [List.map_cons, m.weight_cons]
    omega
  · have h := m.weight_children _h
    rw [List.map_append, List.map_reverse, List.zipIdx_map_fst, List.map_cons, m.weight_append,
      m.weight_reverse, m.weight_cons]
    dsimp only
    omega

/-- The object of a cell, when the values at all places are known. -/
def Cell.value (c : Cell) (valueAt : Nat → Value) : Value :=
  .obj (c.fields ++
    match c.children with
    | none => []
    | some places => [("children", .arr (places.map valueAt))])

/-- The values of the cells from the place `start` on. -/
def valuesFrom (start : Nat) : List Cell → List Value
  | [] => []
  | c :: cells =>
    let later := valuesFrom (start + 1) cells
    c.value (fun place => later.getD (place - (start + 1)) .null) :: later

def values (cells : List Cell) : List Value := valuesFrom 0 cells

/-- The cell of the root is the first one. -/
def data (m : Model α) (root : α) : Value := (values (fill m [(root, 0)] [m.cell root])).headD .null

end Dump
end CodeIndex
