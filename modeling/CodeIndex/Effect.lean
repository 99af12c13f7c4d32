import CodeIndex.Error
import CodeIndex.Json.Text
import CodeIndex.Number.Binary
import CodeIndex.Table

/-!
# CodeIndex.Effect

What an operation does that can be seen from outside, in order.

* `Usage`: the report on one request.
* `Notice`: what is logged; `Notice.line` is the line with its severity and its origin.
* `Output`: what a command prints.
* `Effect`: a file read, a call of the grammar loader, a vocabulary taken, a line logged, an event
  handed to a listener, or an output seen on the terminal.
-/

namespace CodeIndex

structure Usage where
  tool : String
  arguments : Table Value
  failed : Bool
  error : Option String
  milliseconds : Float
  tokens : Int

namespace Usage

def status (e : Usage) : String := if e.failed then "error" else "success"

def errorPart (e : Usage) : String :=
  match e.error with
  | none => ""
  | some message => if message = "" then "" else " error=" ++ message

def text (e : Usage) : String :=
  "tool_usage tool=" ++ e.tool ++ " status=" ++ e.status ++
    " duration_ms=" ++ Places.ofFloat 1 e.milliseconds ++
    " output_tokens=" ++ String.ofList (Json.intText e.tokens) ++
    " input=" ++ Json.asciiText (.obj e.arguments) ++ e.errorPart

end Usage

inductive Notice where
  | alreadyLoaded (language : String)
  | loadFailed (language : String) (fault : LoadFault)
  | loaded (language : String)
  | cacheHit (file : String)
  | parsed (file language : String)
  | toolFailed (tool : String) (error : Error)
  | usage (event : Usage)

/-- How much a notice matters. -/
inductive Severity where
  | debug
  | info
  | warning
  | error
deriving DecidableEq, Repr

namespace Severity

def name : Severity → String
  | .debug => "DEBUG"
  | .info => "INFO"
  | .warning => "WARNING"
  | .error => "ERROR"

end Severity

namespace Notice

def severity : Notice → Severity
  | .alreadyLoaded _ => .debug
  | .loadFailed _ _ => .error
  | .loaded _ => .info
  | .cacheHit _ => .debug
  | .parsed _ _ => .info
  | .toolFailed _ _ => .warning
  | .usage _ => .info

/-- Which part of the program a notice comes from. -/
def origin : Notice → String
  | .alreadyLoaded _ | .loadFailed _ _ | .loaded _ => "core.grammars"
  | .cacheHit _ | .parsed _ _ => "core.index"
  | .toolFailed _ _ => "tools.handlers"
  | .usage _ => "tools.usage"

def message : Notice → String
  | .alreadyLoaded language => "Language '" ++ language ++ "' is already loaded."
  | .loadFailed language fault =>
    "Failed to load grammar for '" ++ language ++ "': " ++ fault.message
  | .loaded language => "Successfully loaded language: " ++ language
  | .cacheHit file => "Tree cache hit for " ++ file
  | .parsed file language => "Parsed " ++ file ++ " (language: " ++ language ++ ")"
  | .toolFailed tool error => "Tool " ++ tool ++ " failed: " ++ error.message
  | .usage event => event.text

def line (n : Notice) : String := n.severity.name ++ " " ++ n.origin ++ ": " ++ n.message

end Notice

/-- Something that is handed to the terminal, or what is seen of it then. In what is handed to it, words in
brackets are marks of colour; texts that come from files or paths stand in lines and tables as they are. -/
inductive Output where
  | line (text : String)
  | table (headers : List String) (rows : List (List String))
  | code (text lexer : String)
  | json (text : String)
deriving DecidableEq

inductive Effect where
  | read (file : String)
  | load (language : String)
  | vocabulary (name : String)
  | log (notice : Notice)
  | event (event : Usage)
  | shown (output : Output)

end CodeIndex
