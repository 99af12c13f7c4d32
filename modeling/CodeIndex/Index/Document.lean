import CodeIndex.Registry
import CodeIndex.Syntax.Tree
import CodeIndex.Text.Utf8

/-!
# CodeIndex.Index.Document

A parsed file: its id, its language, the grammar, the tree, and the bytes of the source. Texts of
nodes are cut out of the source; a cut inside a character gives replacement characters.
-/

namespace CodeIndex

structure Document where
  /-- How many documents were made before; no two of them have the same serial. -/
  serial : Nat
  file : String
  language : String
  grammar : Grammar
  tree : Tree
  source : List UInt8

namespace Document

def text (d : Document) : String := String.ofList (Utf8.decodeLossy d.source)

def bytesOf (d : Document) (n : Node) : List UInt8 :=
  (d.source.drop n.label.startByte).take (n.label.endByte - n.label.startByte)

def textOf (d : Document) (n : Node) : String :=
  if d.tree.hasText then String.ofList (Utf8.decodeLossy (d.bytesOf n)) else ""

/-- The text of the child under the field `name`. -/
def nameOf? (d : Document) (n : Node) : Option String := n.nameNode?.map d.textOf

end Document
end CodeIndex
