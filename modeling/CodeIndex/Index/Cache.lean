import CodeIndex.Index.Loading
import CodeIndex.Language.Name

/-!
# CodeIndex.Index.Cache

Documents by file id.

* `document` gives the entry of a path, and parses the file if there is none.
* `reparse` parses in any case, and the result takes the place of the entry.
* A failure leaves the cache as it was.
-/

namespace CodeIndex
namespace Action

def canonical (path : String) : Action String := do
  if Path.hasNul path then fail (.fault .nullByte)
  else return Path.canonical (← setup).directory path

def cached? (file : String) : Action (Option Document) :=
  return (← state).index.cache.get? file

/-- The entry of a path, without parsing. -/
def entry? (path : String) : Action (Option Document) := do
  cached? (← canonical path)

def isCached (path : String) : Action Bool :=
  return (← entry? path).isSome

/-- Removes the entry of a path, and tells whether there was one. -/
def forget (path : String) : Action Bool := do
  let file ← canonical path
  let entry ← cached? file
  modifyIndex fun i => { i with cache := i.cache.erase file }
  return entry.isSome

def forgetAll : Action Unit := modifyIndex fun i => { i with cache := [] }

/-- A content that is given is taken as it is, an empty one too. -/
def source (file : String) (content : Option String) : Action String := do
  match content with
  | some text => return text
  | none =>
    emit (.read file)
    match (← state).world.disk.text file with
    | .ok text => return text
    | .error fault => fail (.error (.unreadable file fault))

def languageOf (language : Option String) (file : String) : Action String :=
  match Language.choose language file with
  | .ok name => return name
  | .error suffix => fail (.error (.unknownSuffix suffix))

/-- Makes the result of a parse the entry of its file. -/
def store (file language : String) (grammar : Grammar) (tree : Tree) (content : String) :
    Action Document := do
  let d : Document :=
    ⟨(← state).index.made, file, language, grammar, tree, Utf8.encode content.toList⟩
  modifyIndex fun i => { i with made := i.made + 1, cache := i.cache.insert file d }
  log (.parsed file language)
  return d

/-- Parses the file with an id: its language, the grammar, the source, and the tree, in this order. -/
def parse (file : String) (language content : Option String) : Action Document := do
  let language ← languageOf language file
  load language
  let grammar ← grammar language
  let content ← source file content
  match (← setup).engine.parse grammar content with
  | some tree => store file language grammar tree content
  | none => fail (.error (.noTree file))

def document (path : String) (language content : Option String) : Action Document := do
  let file ← canonical path
  match ← cached? file with
  | some d =>
    log (.cacheHit file)
    return d
  | none => parse file language content

def reparse (path : String) (language content : Option String) : Action Document := do
  parse (← canonical path) language content

end Action
end CodeIndex
