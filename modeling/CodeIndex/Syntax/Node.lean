import CodeIndex.Json.Value

/-!
# CodeIndex.Syntax.Node

Nodes of a syntax tree.

* `Point`: a row and a column, ordered by row and then by column.
* `Node`: a label and the children in order. The number of a node is its place in the pre-order
  listing of its tree, and tells nodes apart.
* `Node.preorder`: a node before its children, and these in order.
-/

namespace CodeIndex

structure Point where
  row : Int
  column : Int
deriving DecidableEq, Repr, Inhabited

namespace Point

def lt (p q : Point) : Bool := p.row < q.row || (p.row == q.row && p.column < q.column)

def le (p q : Point) : Bool := !q.lt p

def toValue (p : Point) : Value := .obj [("row", .int p.row), ("column", .int p.column)]

def ofValue? : Value → Option Point
  | .obj [("row", .int row), ("column", .int column)] => some ⟨row, column⟩
  | _ => none

@[simp] theorem ofValue?_toValue (p : Point) : ofValue? p.toValue = some p := by
  simp [toValue, ofValue?]

/-- As `row:column`. -/
def text (p : Point) : String := toString p.row ++ ":" ++ toString p.column

end Point

structure Label where
  number : Nat
  kind : String
  named : Bool
  startByte : Nat
  endByte : Nat
  start : Point
  stop : Point
  /-- Which child stands under the field `name`, if there is one. -/
  nameChild : Option Nat
deriving Repr, Inhabited

inductive Node where
  | node (label : Label) (children : List Node)
deriving Inhabited

namespace Node

def label : Node → Label
  | .node l _ => l

def children : Node → List Node
  | .node _ cs => cs

@[simp] theorem label_node (l : Label) (cs : List Node) : (node l cs).label = l := rfl
@[simp] theorem children_node (l : Label) (cs : List Node) : (node l cs).children = cs := rfl

def kind (n : Node) : String := n.label.kind

def nameNode? (n : Node) : Option Node := n.label.nameChild.bind fun i => n.children[i]?

mutual

/-- How many nodes there are from a node on down. -/
def size : Node → Nat
  | .node _ cs => sizeAll cs + 1

def sizeAll : List Node → Nat
  | [] => 0
  | c :: cs => c.size + sizeAll cs

end

mutual

def preorder : Node → List Node
  | .node l cs => .node l cs :: preorderAll cs

def preorderAll : List Node → List Node
  | [] => []
  | c :: cs => c.preorder ++ preorderAll cs

end

theorem sizeAll_append (ns ms : List Node) : sizeAll (ns ++ ms) = sizeAll ns + sizeAll ms := by
  induction ns with
  | nil => simp [sizeAll]
  | cons n ns ih => simp [sizeAll, ih, Nat.add_assoc]

theorem size_le_sizeAll {n : Node} {ns : List Node} (h : n ∈ ns) : n.size ≤ sizeAll ns := by
  induction ns with
  | nil => cases h
  | cons m ns ih =>
    rcases List.mem_cons.1 h with rfl | h
    · exact Nat.le_add_right ..
    · exact Nat.le_trans (ih h) (Nat.le_add_left ..)

theorem sizeAll_filter_le (keep : Node → Bool) (ns : List Node) :
    sizeAll (ns.filter keep) ≤ sizeAll ns := by
  induction ns with
  | nil => simp
  | cons n ns ih =>
    cases h : keep n <;> simp [h, sizeAll] <;> omega

end Node
end CodeIndex
