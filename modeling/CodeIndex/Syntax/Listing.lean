import CodeIndex.Syntax.Node

/-!
# CodeIndex.Syntax.Listing

A tree as the list of its labels in pre-order, each with the number of its children. `forest` builds
the trees that a listing holds; the number of a node is its place in the listing.
-/

namespace CodeIndex

structure Entry where
  label : Label
  childCount : Nat
deriving Inhabited

namespace Listing

/-- The trees of the entries that start at place `number`: an entry takes as many of the trees after
it as it has children. -/
def forestFrom (number : Nat) : List Entry → List Node
  | [] => []
  | e :: entries =>
    let later := forestFrom (number + 1) entries
    .node { e.label with number := number } (later.take e.childCount) :: later.drop e.childCount

def forest (entries : List Entry) : List Node := forestFrom 0 entries

/-- The root is the first entry. -/
def tree? (entries : List Entry) : Option Node := (forest entries).head?

mutual

/-- The listing of a tree. -/
def ofNode : Node → List Entry
  | .node l cs => ⟨l, cs.length⟩ :: ofNodes cs

def ofNodes : List Node → List Entry
  | [] => []
  | n :: ns => ofNode n ++ ofNodes ns

end

end Listing
end CodeIndex
