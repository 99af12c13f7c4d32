import CodeIndex.Index.Document
import CodeIndex.Syntax.Traversal

/-!
# CodeIndex.Lookup.InDocument

What is looked up in one document.

* `Capture.list`: the captures of a query in document order: by the byte where a captured node starts, and
  in the order of the matcher where two start at the same byte.
* `Element.list`: the nodes of one kind in document order, nested ones included. An element without a name,
  or with an empty one, is called anonymous.
* `Enclosing.text?`: the text of the innermost block around a point. Where no block encloses the point it is
  the whole text of the document, and outside of the root node there is none.
-/

namespace CodeIndex

structure Capture where
  name : String
  text : String
  start : Point
  stop : Point
deriving DecidableEq, Repr

namespace Capture

def toValue (c : Capture) : Value :=
  .obj [("name", .str c.name), ("text", .str c.text), ("start", c.start.toValue),
    ("end", c.stop.toValue)]

/-- Every captured node with the name of its capture, match by match. -/
def pairs (found : List Match) : List (String × Node) :=
  found.flatMap fun m => m.flatMap fun c => c.2.map fun n => (c.1, n)

def startsNoLater (a b : String × Node) : Bool := a.2.label.startByte ≤ b.2.label.startByte

def ofPair (d : Document) (p : String × Node) : Capture :=
  ⟨p.1, d.textOf p.2, p.2.label.start, p.2.label.stop⟩

/-- `queryFault?` is what the query compiler finds wrong. -/
def list (queryFault? : Grammar → String → Option String) (d : Document) (query : String) :
    Except Error (List Capture) :=
  match queryFault? d.grammar query with
  | some diagnostic => .error (.badQuery query diagnostic)
  | none => .ok (((pairs (d.tree.matchesOf query)).mergeSort startsNoLater).map (ofPair d))

end Capture

structure Element where
  name : String
  kind : String
  text : String
  start : Point
  stop : Point
deriving DecidableEq, Repr

namespace Element

def toValue (e : Element) : Value :=
  .obj [("name", .str e.name), ("type", .str e.kind), ("text", .str e.text),
    ("start", e.start.toValue), ("end", e.stop.toValue)]

def anonymous : String := "(anonymous)"

def displayName (name : Option String) : String :=
  match name with
  | some name => if name = "" then anonymous else name
  | none => anonymous

def ofNode (d : Document) (n : Node) : Element :=
  ⟨displayName (d.nameOf? n), n.kind, d.textOf n, n.label.start, n.label.stop⟩

/-- The elements of a kind in a document. -/
def list (d : Document) (kind : String) : List Element :=
  (d.tree.root.visit.filter fun n => n.kind == kind).map (ofNode d)

end Element

namespace Enclosing

def isOutside (root : Node) (p : Point) : Bool :=
  p.lt root.label.start || root.label.stop.lt p

def text? (d : Document) (blocks : List String) (p : Point) : Option String :=
  if isOutside d.tree.root p then none
  else
    (d.tree.pathTo? p).map fun path =>
      match path.find? fun n => blocks.contains n.kind with
      | some block => d.textOf block
      | none => d.text

end Enclosing

end CodeIndex
