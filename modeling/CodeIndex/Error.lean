import CodeIndex.Text.Quoted

/-!
# CodeIndex.Error

What can go wrong, by cause.

* `Error`: the failures that a request is answered with. `Error.message` is the wording.
* `Fault`: the failures that no request answers, and that end it.
* `Failure`: either of them.
-/

namespace CodeIndex

/-- Why no grammar was found. -/
structure LoadFault where
  message : String
deriving DecidableEq, Repr

/-- Why a file could not be read as text. -/
inductive ReadFault where
  | missing
  | directory
  | notDirectory
  | nameTooLong
  | denied
  | notUtf8
deriving DecidableEq, Repr

/-- The argument of a tool that does not fit, and what it should be. -/
inductive ArgumentError where
  | required (names : List String)
  | integer (name : String)
  | negative (name : String)
  | string (name : String)
  | strings (name : String)
deriving DecidableEq, Repr

namespace ArgumentError

def inQuotes (name : String) : String := "'" ++ name ++ "'"

def message : ArgumentError → String
  | .required names =>
    "The " ++ ", ".intercalate (names.map inQuotes) ++
      (if names.length = 1 then " parameter is required." else " parameters are required.")
  | .integer name => "The '" ++ name ++ "' parameter is required and must be an integer."
  | .negative name => "The '" ++ name ++ "' parameter must be zero or greater."
  | .string name => "The '" ++ name ++ "' parameter must be a string."
  | .strings name => "The '" ++ name ++ "' parameter must be an array of strings."

end ArgumentError

inductive Error where
  | notLoaded (language : String)
  | noGrammar (language : String) (fault : LoadFault)
  | unknownSuffix (suffix : String)
  | unreadable (path : String) (fault : ReadFault)
  | noTree (path : String)
  | badQuery (query diagnostic : String)
  | argument (error : ArgumentError)
deriving DecidableEq, Repr

namespace Error

def message : Error → String
  | .notLoaded language =>
    "Language '" ++ language ++ "' is not loaded. Call initialize_treesitter_context first."
  | .noGrammar language fault =>
    "Could not load grammar for '" ++ language ++ "': " ++ fault.message
  | .unknownSuffix suffix =>
    "Unsupported file extension: " ++ (if suffix = "" then "(none)" else suffix) ++
      ". Pass an explicit language instead."
  | .unreadable path _ =>
    "File not found at path: " ++ path ++
      ". Please ensure you are using an absolute path to the file."
  | .noTree path => "Failed to parse file: " ++ path ++ ". The parser returned no tree."
  | .badQuery query diagnostic => "Invalid query: " ++ diagnostic ++ "\nQuery: " ++ query
  | .argument error => error.message

end Error

inductive Fault where
  | nullByte
  | unknownEncoding (name : String)
  | unknownLevel (level : String)
  /-- Data nested too deep for a recursive reader or writer. -/
  | tooDeep (activity : String)
  | badMarkup (message : String)
deriving DecidableEq, Repr

namespace Fault

def message : Fault → String
  | .nullByte => "embedded null byte"
  | .unknownEncoding name => "Unknown encoding " ++ name
  | .unknownLevel level => "Unknown level: " ++ String.ofList (Quoted.encode level.toList)
  | .tooDeep activity => "maximum recursion depth exceeded while " ++ activity
  | .badMarkup message => message

end Fault

inductive Failure where
  | error (e : Error)
  | fault (f : Fault)
deriving DecidableEq, Repr

namespace Failure

def message : Failure → String
  | .error e => e.message
  | .fault f => f.message

end Failure
end CodeIndex
