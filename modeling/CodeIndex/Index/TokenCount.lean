import CodeIndex.Index.Action

/-!
# CodeIndex.Index.TokenCount

Counting tokens under the encoding of the index, or the one that the environment names. A vocabulary
is taken at its first use; one that cannot be taken is tried again each time. The empty text has no
tokens under any encoding, and none is needed for it.
-/

namespace CodeIndex
namespace Action

/-- Takes a vocabulary, unless it has been taken before. -/
def takeVocabulary (name : String) : Action Unit := do
  if (← state).world.vocabularies.contains name then return ()
  else
    emit (.vocabulary name)
    modifyWorld fun w => { w with vocabularies := w.vocabularies ++ [name] }

def environmentEncoding : Action Encoding := do
  let setup ← setup
  let name := setup.settings.encoding
  match setup.vocabulary? name with
  | some encoding =>
    takeVocabulary name
    return encoding
  | none =>
    emit (.vocabulary name)
    fail (.fault (.unknownEncoding name))

def encoding : Action Encoding := do
  match (← setup).encoding with
  | some encoding => return encoding
  | none => environmentEncoding

def tokensOf (text : String) : Action Nat := do
  if text = "" then return 0
  else return (← encoding).count text

end Action
end CodeIndex
