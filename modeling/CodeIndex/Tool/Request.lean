import CodeIndex.Lookup.ByPath
import CodeIndex.Tool.Answer

/-!
# CodeIndex.Tool.Request

The six tools and their requests.

* `Tool.request`: the request that the arguments of a tool make, or the first argument that does not
  fit. An argument that is missing is null.
* `Request.run`: carries a request out on the index.
-/

namespace CodeIndex

inductive Tool where
  | loadLanguages
  | reparse
  | captures
  | elements
  | enclosing
  | comparison
deriving DecidableEq, Repr

inductive Request where
  | loadLanguages (languages : List String)
  | reparse (path : String) (language content : Option String)
  | captures (path query : String)
  | elements (path kind : String)
  | enclosing (path : String) (point : Point)
  | comparison (path language : String) (content : Option String)
deriving DecidableEq, Repr

namespace Arguments

/-- A text with at least one character. -/
def text? (v : Value) : Option String :=
  match v with
  | .str s => if s = "" then none else some s
  | _ => none

def argument (arguments : Table Value) (name : String) : Value :=
  (arguments.get? name).getD .null

def required (arguments : Table Value) (name : String) : Except ArgumentError String :=
  match text? (argument arguments name) with
  | some s => .ok s
  | none => .error (.required [name])

/-- Two texts that are asked for together. -/
def requiredPair (arguments : Table Value) (first second : String) :
    Except ArgumentError (String × String) :=
  match text? (argument arguments first), text? (argument arguments second) with
  | some s, some t => .ok (s, t)
  | _, _ => .error (.required [first, second])

def optional (arguments : Table Value) (name : String) : Except ArgumentError (Option String) :=
  match argument arguments name with
  | .null => .ok none
  | .str s => .ok (some s)
  | _ => .error (.string name)

def place (arguments : Table Value) (name : String) : Except ArgumentError Int :=
  match argument arguments name with
  | .int n => if n < 0 then .error (.negative name) else .ok n
  | _ => .error (.integer name)

def texts (arguments : Table Value) (name : String) : Except ArgumentError (List String) :=
  match argument arguments name with
  | .arr items =>
    match items.mapM text? with
    | some languages => .ok languages
    | none => .error (.strings name)
  | _ => .error (.strings name)

end Arguments

namespace Tool

open Arguments

def name : Tool → String
  | .loadLanguages => "initialize_treesitter_context"
  | .reparse => "parse_file"
  | .captures => "structural_code_search"
  | .elements => "list_code_elements_by_kind"
  | .enclosing => "get_contextual_code_snippets"
  | .comparison => "analyze_code_structure"

def all : List Tool := [.loadLanguages, .reparse, .captures, .elements, .enclosing, .comparison]

def named? (name : String) : Option Tool := all.find? fun t => t.name == name

theorem named?_name (t : Tool) : named? t.name = some t := by
  cases t <;> decide

def request (tool : Tool) (arguments : Table Value) : Except ArgumentError Request :=
  match tool with
  | .loadLanguages => do
    return .loadLanguages (← texts arguments "languages")
  | .reparse => do
    let path ← required arguments "path"
    let language ← optional arguments "language"
    let content ← optional arguments "content"
    return .reparse path language content
  | .captures => do
    let (path, query) ← requiredPair arguments "path" "query"
    return .captures path query
  | .elements => do
    let (path, kind) ← requiredPair arguments "path" "node_type"
    return .elements path kind
  | .enclosing => do
    let path ← required arguments "path"
    let row ← place arguments "row"
    let column ← place arguments "column"
    return .enclosing path ⟨row, column⟩
  | .comparison => do
    let (path, language) ← requiredPair arguments "path" "language"
    let content ← optional arguments "content"
    return .comparison path language content

end Tool

namespace Request

def noSnippet : String := "Could not find a contextual snippet for the given position."

def run : Request → Action Answer
  | .loadLanguages languages => do
    Action.loadTogether languages
    return .text ("Successfully initialized Tree-sitter context and loaded grammars for: " ++
      ", ".intercalate languages ++ ".")
  | .reparse path language content => do
    let d ← Action.reparse path language content
    return .text ("Successfully parsed and indexed file: " ++ d.file ++ " (language: " ++
      d.language ++ ")")
  | .captures path query => do
    return .structured (.arr ((← Action.captures path query).map Capture.toValue))
  | .elements path kind => do
    return .structured (.arr ((← Action.elements path kind).map Element.toValue))
  | .enclosing path point => do
    return .text ((← Action.enclosing path point).getD noSnippet)
  | .comparison path language content => do
    return .structured (← Action.comparison path (some language) content).toValue

end Request
end CodeIndex
