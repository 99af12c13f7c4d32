import CodeIndex.Syntax.Node

/-!
# CodeIndex.Syntax.Traversal

Two ways through a tree.

* `visit`: the pre-order, from an explicit stack of the nodes that are still to be visited. The stack
  shrinks by one node with every step, children counted.
* `pathTo p`: the descent from a node to the first child that ends behind the point, and on from there,
  as long as that child starts at or before the point. The result is the node that is reached with all
  nodes above it, innermost first.
-/

namespace CodeIndex
namespace Node

/-- Visits the nodes of the stack, the first one next. -/
def visitFrom : List Node → List Node
  | [] => []
  | n :: stack => n :: visitFrom (n.children ++ stack)
termination_by stack => sizeAll stack
decreasing_by
  cases n
  simp [sizeAll, sizeAll_append, size]

def visit (root : Node) : List Node := visitFrom [root]

theorem visitFrom_cons (n : Node) (stack : List Node) :
    visitFrom (n :: stack) = n :: visitFrom (n.children ++ stack) := by
  rw [visitFrom]

/-- A child that ends before the point is passed over. One that ends at the point is passed over as
well, unless it is empty. -/
def isPassed (p : Point) (c : Node) : Bool :=
  c.label.stop.lt p || (c.label.start != c.label.stop && c.label.stop.le p)

mutual

def pathTo (p : Point) : Node → List Node
  | .node l cs => pathBelow p cs ++ [.node l cs]

def pathBelow (p : Point) : List Node → List Node
  | [] => []
  | c :: cs =>
    if isPassed p c then pathBelow p cs
    else if p.lt c.label.start then []
    else c.pathTo p

end

end Node
end CodeIndex
