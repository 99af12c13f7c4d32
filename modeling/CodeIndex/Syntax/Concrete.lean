import CodeIndex.Json.Compact
import CodeIndex.Syntax.Build
import CodeIndex.Syntax.Dump

/-!
# CodeIndex.Syntax.Concrete

The concrete tree: every node with its kind, text and place, punctuation and comments included.

* `Concrete.ofNode`: the concrete tree of a node.
* `Concrete.toValue`: its data by recursion, the fields in the order type, text, start, end, children;
  `Concrete.ofValue?` reads them back.
* `Concrete.data`: its data as it is written.
-/

namespace CodeIndex

inductive Concrete where
  | node (kind text : String) (start stop : Point) (children : List Concrete)
deriving Inhabited

namespace Concrete

def make (text : Node → String) (n : Node) (children : List Concrete) : Concrete :=
  .node n.kind (text n) n.label.start n.label.stop children

/-- `text` gives the text of a node. No node is left out, so that there is always a result. -/
def ofNode (text : Node → String) (root : Node) : Concrete :=
  (Build.bottomUp (make text) (fun _ => true) root).get (by simp [Build.bottomUp_eq])

theorem ofNode_eq_fold (text : Node → String) (root : Node) :
    ofNode text root = Build.fold (make text) (fun _ => true) root := by
  simp [ofNode, Build.bottomUp_eq]

mutual

def toValue : Concrete → Value
  | .node kind text start stop children =>
    .obj [("type", .str kind), ("text", .str text), ("start", start.toValue),
      ("end", stop.toValue), ("children", .arr (toValues children))]

def toValues : List Concrete → List Value
  | [] => []
  | c :: cs => c.toValue :: toValues cs

end

mutual

/-- The concrete tree that data of this form stands for. -/
def ofValue? : Value → Option Concrete
  | .obj [("type", .str kind), ("text", .str text), ("start", start), ("end", stop),
      ("children", .arr children)] => do
    return .node kind text (← Point.ofValue? start) (← Point.ofValue? stop) (← ofValues? children)
  | _ => none

def ofValues? : List Value → Option (List Concrete)
  | [] => some []
  | v :: vs => do
    return (← ofValue? v) :: (← ofValues? vs)

end

mutual

theorem ofValue?_toValue (c : Concrete) : ofValue? c.toValue = some c := by
  cases c
  simp [toValue, ofValue?, ofValues?_toValues]

theorem ofValues?_toValues (cs : List Concrete) : ofValues? (toValues cs) = some cs := by
  cases cs with
  | nil => simp [toValues, ofValues?]
  | cons c cs => simp [toValues, ofValues?, ofValue?_toValue c, ofValues?_toValues cs]

end

def fields : Concrete → List (String × Value)
  | .node kind text start stop _ =>
    [("type", .str kind), ("text", .str text), ("start", start.toValue), ("end", stop.toValue)]

def children : Concrete → List Concrete
  | .node _ _ _ _ cs => cs

def model : Dump.Model Concrete where
  fields := fields
  children? c := some c.children
  finite := by
    refine ⟨sizeOf, fun c cs h => ?_⟩
    cases h
    have hs := Dump.total_sizeOf_le c.children
    cases c
    simp only [children, node.sizeOf_spec] at hs ⊢
    omega

def data (c : Concrete) : Value := Dump.data model c

def compactText (c : Concrete) : String := Json.compact c.data

end Concrete
end CodeIndex
