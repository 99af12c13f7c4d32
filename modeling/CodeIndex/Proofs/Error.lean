import CodeIndex.Tool.Boundary

/-!
# CodeIndex.Proofs.Error

The wording of a message tells its cause, already by the third character: `Error.mark`. So a message
about an argument or an unknown tool is never the one of another failure.
-/

namespace CodeIndex

/-- The third character of the message. -/
def Error.mark : Error → Char
  | .notLoaded _ => 'n'
  | .noGrammar _ _ => 'u'
  | .unknownSuffix _ => 's'
  | .unreadable _ _ => 'l'
  | .noTree _ => 'i'
  | .badQuery _ _ => 'v'
  | .argument _ => 'e'

/-- A text goes on as it starts. -/
theorem getElem?_append_text {a : String} {i : Nat} {c : Char} (h : a.toList[i]? = some c)
    (b : String) : (a ++ b).toList[i]? = some c := by
  rw [String.toList_append, List.getElem?_append_left (List.getElem?_eq_some_iff.mp h).1, h]

theorem ArgumentError.getElem?_message (e : ArgumentError) : e.message.toList[2]? = some 'e' := by
  cases e with
  | required names => exact getElem?_append_text (getElem?_append_text rfl _) _
  | integer name | negative name | string name | strings name =>
    exact getElem?_append_text (getElem?_append_text rfl _) _

theorem Error.getElem?_message (e : Error) : e.message.toList[2]? = some e.mark := by
  cases e with
  | notLoaded language => exact getElem?_append_text (getElem?_append_text rfl _) _
  | noGrammar language fault =>
    exact getElem?_append_text (getElem?_append_text (getElem?_append_text rfl _) _) _
  | unknownSuffix suffix => exact getElem?_append_text (getElem?_append_text rfl _) _
  | unreadable path fault => exact getElem?_append_text (getElem?_append_text rfl _) _
  | noTree path => exact getElem?_append_text (getElem?_append_text rfl _) _
  | badQuery query diagnostic =>
    exact getElem?_append_text (getElem?_append_text (getElem?_append_text rfl _) _) _
  | argument e => exact e.getElem?_message

theorem Error.message_ne {e e' : Error} (h : e.mark ≠ e'.mark) : e.message ≠ e'.message := by
  intro he
  have hmark := e.getElem?_message
  rw [he, e'.getElem?_message] at hmark
  exact h (Option.some.inj hmark).symm

theorem Error.message_ne_unknownTool (e : Error) (name : String) :
    e.message ≠ Action.unknownTool name := by
  intro he
  have hmark := e.getElem?_message
  rw [he, show (Action.unknownTool name).toList[2]? = some 'k' from getElem?_append_text rfl _] at hmark
  cases e <;> cases hmark

end CodeIndex
