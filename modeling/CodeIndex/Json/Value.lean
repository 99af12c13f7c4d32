/-!
# CodeIndex.Json.Value

Plain data: the argument values of a tool, the payload of its result, and what trees are dumped to.

* `Value`: null, booleans, integers of any size, doubles, strings, arrays, and objects whose fields
  keep their order.
* `Value.size` bounds the work of the stack traversals, and `Value.levels` that of a recursive writer's
  stack.
-/

namespace CodeIndex

inductive Value where
  | null
  | bool (b : Bool)
  | int (n : Int)
  | float (x : Float)
  | str (s : String)
  | arr (items : List Value)
  | obj (fields : List (String × Value))
deriving Inhabited

namespace Value

mutual

/-- More than the number of pieces that the value is written in. -/
def size : Value → Nat
  | .arr items => 3 + sizeItems items
  | .obj fields => 3 + sizeFields fields
  | _ => 2

def sizeItems : List Value → Nat
  | [] => 0
  | v :: items => 1 + v.size + sizeItems items

def sizeFields : List (String × Value) → Nat
  | [] => 0
  | (_, v) :: fields => 2 + v.size + sizeFields fields

end

mutual

/-- How many arrays and objects stand in each other, at most. -/
def levels : Value → Nat
  | .arr items => 1 + levelsItems items
  | .obj fields => 1 + levelsFields fields
  | _ => 0

def levelsItems : List Value → Nat
  | [] => 0
  | v :: items => max v.levels (levelsItems items)

def levelsFields : List (String × Value) → Nat
  | [] => 0
  | (_, v) :: fields => max v.levels (levelsFields fields)

end

end Value
end CodeIndex
