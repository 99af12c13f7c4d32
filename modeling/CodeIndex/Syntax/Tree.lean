import CodeIndex.Syntax.Traversal
import CodeIndex.Table

/-!
# CodeIndex.Syntax.Tree

What a parser gives for a text: the root node, and what the tree answers about itself.

* `Match`: the captures of one match of a query, each a name with its nodes.
* `Tree.matchesOf`: the matches of a query in the order they are reported; a query that the table
  does not hold matches nothing.
-/

namespace CodeIndex

abbrev Match := List (String × List Node)

structure Tree where
  root : Node
  /-- Whether nodes give their text. -/
  hasText : Bool
  /-- Whether the tree finds the node at a point. -/
  hasDescent : Bool
  found : Table (List Match)
deriving Inhabited

namespace Tree

def matchesOf (tree : Tree) (query : String) : List Match := (tree.found.get? query).getD []

/-- The node at a point and the nodes above it, innermost first. -/
def pathTo? (tree : Tree) (p : Point) : Option (List Node) :=
  if tree.hasDescent then some (tree.root.pathTo p) else none

end Tree
end CodeIndex
