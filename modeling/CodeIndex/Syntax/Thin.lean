import CodeIndex.Json.Compact
import CodeIndex.Syntax.Build
import CodeIndex.Syntax.Dump

/-!
# CodeIndex.Syntax.Thin

The thin tree: named nodes only, without comments. A node that is dropped takes its subtree with it.
A thin node has a name if the node has a child under the field `name`, also when that child is
dropped, and it has a list of children if any child is kept.

* `Thin.ofNode?`: the thin tree of a node, `none` if the node itself is dropped.
* `Thin.toValue`: its data by recursion, the fields in the order type, name, start, end, children; what
  is absent is left out. `Thin.ofValue?` reads them back.
* `Thin.data`: its data as it is written.
-/

namespace CodeIndex

inductive Thin where
  | node (kind : String) (name : Option String) (start stop : Point)
      (children : Option (List Thin))
deriving Inhabited

namespace Thin

def commentKinds : List String := ["comment", "line_comment", "block_comment"]

def keeps (n : Node) : Bool := n.label.named && !commentKinds.contains n.kind

def make (text : Node → String) (n : Node) (children : List Thin) : Thin :=
  .node n.kind (n.nameNode?.map text) n.label.start n.label.stop
    (if children.isEmpty then none else some children)

def ofNode? (text : Node → String) (root : Node) : Option Thin :=
  Build.bottomUp (make text) keeps root

/-- An optional field of an object. -/
def field (key : String) : Option Value → List (String × Value)
  | some v => [(key, v)]
  | none => []

mutual

def toValue : Thin → Value
  | .node kind name start stop children =>
    .obj ([("type", .str kind)] ++ field "name" (name.map .str) ++
      [("start", start.toValue), ("end", stop.toValue)] ++ field "children" (toValues? children))

def toValues? : Option (List Thin) → Option Value
  | none => none
  | some cs => some (.arr (toValues cs))

def toValues : List Thin → List Value
  | [] => []
  | c :: cs => c.toValue :: toValues cs

end

mutual

/-- The thin tree that data of this form stands for. -/
def ofValue? : Value → Option Thin
  | .obj [("type", .str kind), ("start", start), ("end", stop)] => do
    return .node kind none (← Point.ofValue? start) (← Point.ofValue? stop) none
  | .obj [("type", .str kind), ("name", .str name), ("start", start), ("end", stop)] => do
    return .node kind (some name) (← Point.ofValue? start) (← Point.ofValue? stop) none
  | .obj [("type", .str kind), ("start", start), ("end", stop), ("children", .arr cs)] => do
    return .node kind none (← Point.ofValue? start) (← Point.ofValue? stop) (some (← ofValues? cs))
  | .obj [("type", .str kind), ("name", .str name), ("start", start), ("end", stop),
      ("children", .arr cs)] => do
    return .node kind (some name) (← Point.ofValue? start) (← Point.ofValue? stop)
      (some (← ofValues? cs))
  | _ => none

def ofValues? : List Value → Option (List Thin)
  | [] => some []
  | v :: vs => do
    return (← ofValue? v) :: (← ofValues? vs)

end

mutual

theorem ofValue?_toValue (t : Thin) : ofValue? t.toValue = some t := by
  obtain ⟨kind, name, start, stop, children⟩ := t
  cases children with
  | none => cases name <;> simp [toValue, toValues?, field, ofValue?]
  | some cs => cases name <;> simp [toValue, toValues?, field, ofValue?, ofValues?_toValues cs]

theorem ofValues?_toValues (ts : List Thin) : ofValues? (toValues ts) = some ts := by
  cases ts with
  | nil => simp [toValues, ofValues?]
  | cons t ts => simp [toValues, ofValues?, ofValue?_toValue t, ofValues?_toValues ts]

end

def fields : Thin → List (String × Value)
  | .node kind name start stop _ =>
    [("type", .str kind)] ++ field "name" (name.map .str) ++
      [("start", start.toValue), ("end", stop.toValue)]

def children? : Thin → Option (List Thin)
  | .node _ _ _ _ cs => cs

def model : Dump.Model Thin where
  fields := fields
  children? := children?
  finite := by
    refine ⟨sizeOf, fun t cs h => ?_⟩
    have hs := Dump.total_sizeOf_le cs
    cases t
    cases h
    simp only [node.sizeOf_spec, Option.some.sizeOf_spec]
    omega

def data (t : Thin) : Value := Dump.data model t

/-- A dropped tree is written as null. -/
def valueOf (thin : Option Thin) : Value :=
  match thin with
  | some t => t.data
  | none => .null

def compactText (thin : Option Thin) : String := Json.compact (valueOf thin)

end Thin
end CodeIndex
