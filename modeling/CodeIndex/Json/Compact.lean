import CodeIndex.Json.Text

/-!
# CodeIndex.Json.Compact

The compact JSON text, written from an explicit stack, so that values of any depth are written
without recursion. The stack holds what is still to be written, the next piece first.
-/

namespace CodeIndex
namespace Json

/-- A text that stands as it is, or a value that is not written yet. -/
inductive Piece where
  | raw (text : List Char)
  | value (v : Value)

def Piece.weight : Piece → Nat
  | .raw _ => 1
  | .value v => v.size

def weight : List Piece → Nat
  | [] => 0
  | p :: stack => p.weight + weight stack

def itemPieces (first : Bool) : List Value → List Piece
  | [] => []
  | v :: items =>
    (if first then [] else [.raw [',']]) ++ .value v :: itemPieces false items

def fieldPieces (first : Bool) : List (String × Value) → List Piece
  | [] => []
  | (key, v) :: fields =>
    (if first then [] else [.raw [',']]) ++
      .raw (Style.compact.string key ++ [':']) :: .value v :: fieldPieces false fields

theorem weight_append (s t : List Piece) : weight (s ++ t) = weight s + weight t := by
  induction s with
  | nil => simp [weight]
  | cons p s ih => simp [weight, ih, Nat.add_assoc]

theorem weight_itemPieces_le (first : Bool) (items : List Value) :
    weight (itemPieces first items) ≤ Value.sizeItems items := by
  induction items generalizing first with
  | nil => simp [itemPieces, weight, Value.sizeItems]
  | cons v items ih =>
    have := ih false
    cases first <;> simp [itemPieces, weight, Value.sizeItems, Piece.weight] at this ⊢ <;> omega

theorem weight_fieldPieces_le (first : Bool) (fields : List (String × Value)) :
    weight (fieldPieces first fields) ≤ Value.sizeFields fields := by
  induction fields generalizing first with
  | nil => simp [fieldPieces, weight, Value.sizeFields]
  | cons f fields ih =>
    have := ih false
    cases first <;> simp [fieldPieces, weight, Value.sizeFields, Piece.weight] at this ⊢ <;> omega

/-- A value one level down: a scalar is written, the parts of an array or object are still values. -/
def pieces : Value → List Piece
  | .arr items => .raw ['['] :: itemPieces true items ++ [.raw [']']]
  | .obj fields => .raw [leftBrace] :: fieldPieces true fields ++ [.raw [rightBrace]]
  | v => [.raw (Style.compact.scalar v)]

theorem weight_pieces_lt (v : Value) : weight (pieces v) < v.size := by
  cases v with
  | arr items =>
    have := weight_itemPieces_le true items
    simp [pieces, weight, weight_append, Piece.weight, Value.size] at this ⊢
    omega
  | obj fields =>
    have := weight_fieldPieces_le true fields
    simp [pieces, weight, weight_append, Piece.weight, Value.size] at this ⊢
    omega
  | _ => simp [pieces, weight, Piece.weight, Value.size]

/-- Writes the pieces of the stack behind `written`. -/
def write : List Piece → (written : String) → String
  | [], written => written
  | .raw text :: stack, written => write stack (written ++ String.ofList text)
  | .value v :: stack, written => write (pieces v ++ stack) written
termination_by stack => weight stack
decreasing_by
  · simp [weight, Piece.weight]
  · have := weight_pieces_lt v
    rw [weight_append]
    simpa [weight, Piece.weight] using this

def compact (v : Value) : String := write [.value v] ""

end Json
end CodeIndex
