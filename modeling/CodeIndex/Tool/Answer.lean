import CodeIndex.Index.TokenCount
import CodeIndex.Json.Compact

/-!
# CodeIndex.Tool.Answer

What a tool answers: parts of text, of plain data, or an error. The tokens of an answer are those of
its texts and of the compact JSON of its data; an error counts for nothing.
-/

namespace CodeIndex

inductive Part where
  | text (text : String)
  | json (data : Value)
  | error (message : String)

structure Answer where
  parts : List Part
  isError : Bool

namespace Answer

def text (text : String) : Answer := ⟨[.text text], false⟩

def structured (data : Value) : Answer := ⟨[.json data], false⟩

def error (message : String) : Answer := ⟨[.error message], true⟩

def errorText? (answer : Answer) : Option String :=
  answer.parts.findSome? fun
    | .error message => some message
    | _ => none

end Answer

namespace Action

def partTokens (part : Part) : Action Nat :=
  match part with
  | .text text => tokensOf text
  | .json .null => return 0
  | .json data => tokensOf (Json.compact data)
  | .error _ => return 0

def answerTokens : List Part → Action Nat
  | [] => return 0
  | part :: parts => do
    let first ← partTokens part
    return first + (← answerTokens parts)

end Action
end CodeIndex
