import CodeIndex.Tool.Boundary

/-!
# CodeIndex.Tool.Function

The tools as functions of a server: one function for each tool, with parameters of its own. A
function returns the payload of the answer; an error answer is raised.
-/

namespace CodeIndex

structure Parameter where
  name : String
  required : Bool

/-- A function as the server describes it. -/
structure Function where
  name : String
  description : String
  parameters : List Parameter

namespace Function

def sorted (names : List String) : List String := names.mergeSort fun a b => !(b < a : Bool)

def parameterNames (f : Function) : List String := sorted (f.parameters.map Parameter.name)

def requiredNames (f : Function) : List String :=
  sorted ((f.parameters.filter Parameter.required).map Parameter.name)

def parametersOf : Tool → List Parameter
  | .loadLanguages => [⟨"languages", true⟩]
  | .reparse => [⟨"path", true⟩, ⟨"language", false⟩, ⟨"content", false⟩]
  | .captures => [⟨"path", true⟩, ⟨"query", true⟩]
  | .elements => [⟨"path", true⟩, ⟨"node_type", true⟩]
  | .enclosing => [⟨"path", true⟩, ⟨"row", true⟩, ⟨"column", true⟩]
  | .comparison => [⟨"path", true⟩, ⟨"language", true⟩]

def descriptionOf : Tool → String
  | .loadLanguages =>
    "Load tree-sitter grammars for the given languages (e.g. ['python', 'typescript']).\n\n" ++
      "Call this once at the start of a task, before any other tool."
  | .reparse =>
    "Parse a file (or the given content) and replace its cached syntax tree.\n\n" ++
      "Use this after a file changed on disk; other tools keep serving the first parse."
  | .captures =>
    "Run a tree-sitter S-expression query against a file and return every capture.\n\n" ++
      "Example query: (call_expression function: (identifier) @func (#eq? @func \"execute\"))"
  | .elements =>
    "List every syntax node of one kind in a file (e.g. 'function_declaration'), " ++
      "nested ones included."
  | .enclosing =>
    "Return the full text of the function or class enclosing a zero-based row and column."
  | .comparison => "Compare token counts of a file's raw text, its full CST and its thin AST."

def ofTool (tool : Tool) : Function := ⟨tool.name, descriptionOf tool, parametersOf tool⟩

/-- What a function returns. -/
inductive Payload where
  | text (text : String)
  | json (data : Value)

/-- What a function raises. -/
structure Raised where
  message : String
deriving DecidableEq, Repr

/-- The first part of an answer decides. -/
def unwrap (answer : Answer) : Except Raised Payload :=
  match answer.parts with
  | .error message :: _ => .error ⟨message⟩
  | .json data :: _ => .ok (.json data)
  | .text text :: _ => .ok (.text text)
  | [] => .ok (.json .null)

/-- All parameters of a function in order; one that is not given is null. -/
def arguments (tool : Tool) (given : Table Value) : Table Value :=
  (parametersOf tool).map fun p => (p.name, Arguments.argument given p.name)

def call (tool : Tool) (given : Table Value) : Action (Except Raised Payload) := do
  return unwrap (← Action.request tool.name (arguments tool given) 0)

end Function
end CodeIndex
