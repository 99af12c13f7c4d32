import CodeIndex.Number.Numeral
import CodeIndex.Table

/-!
# CodeIndex.Command.Arguments

The arguments of the command line.

* `scan`: splits arguments into options and positional arguments. An option is written `--name value`
  or `--name=value`; `--` ends the options; the last of several values counts.
* `select`: the sub-command, with the arguments that are left for it.
* `Name.command`: the command that the arguments of a sub-command make.

A request for help ends the program with exit status 0, and arguments that do not fit with status 2.
-/

namespace CodeIndex
namespace Command

inductive OptionKind where
  | flag
  | value
deriving DecidableEq

/-- What the arguments hold, as far as they have been read. -/
structure Scan where
  values : Table String := []
  flags : List String := []
  positional : List String := []

def isOption (argument : String) : Bool :=
  match argument.toList with
  | '-' :: _ :: _ => true
  | _ => false

/-- The name before the first equals sign, and the value after it. -/
def splitOption (argument : String) : String × Option String :=
  let name := argument.toList.takeWhile (· ≠ '=')
  let value := match argument.toList.dropWhile (· ≠ '=') with
    | _ :: value => some (String.ofList value)
    | [] => none
  (String.ofList name, value)

/-- `-h`, alone or repeated in one argument. -/
def isShortHelp (argument : String) : Bool :=
  match argument.toList with
  | '-' :: letters => letters.all (· == 'h')
  | _ => false

def help : String := "--help"

def addFlag (scan : Scan) (name : String) : Scan := { scan with flags := scan.flags ++ [name] }

def addValue (scan : Scan) (name value : String) : Scan :=
  { scan with values := scan.values.insert name value }

/-- The value of an option that has none in its own argument is the next argument. -/
def takeValue (name : String) (rest : List String) (scan : Scan) : Option (Scan × List String) :=
  match rest with
  | value :: rest => some (addValue scan name value, rest)
  | [] => none

/-- An option that is read, with the arguments that are left. -/
def scanOption (options : Table OptionKind) (argument : String) (rest : List String)
    (scan : Scan) : Option (Scan × List String) :=
  let option := splitOption argument
  match options.get? option.1, option.2 with
  | some .flag, none => some (addFlag scan option.1, rest)
  | some .flag, some _ => none
  | some .value, some value => some (addValue scan option.1 value, rest)
  | some .value, none => takeValue option.1 rest scan
  | none, _ => if isShortHelp argument then some (addFlag scan help, rest) else none

theorem length_takeValue_le {name : String} {rest left : List String} {before after : Scan}
    (h : takeValue name rest before = some (after, left)) : left.length ≤ rest.length := by
  cases rest with
  | nil => cases h
  | cons value rest =>
    cases h
    exact Nat.le_succ _

theorem length_scanOption_le {options : Table OptionKind} {argument : String}
    {rest left : List String} {before after : Scan}
    (h : scanOption options argument rest before = some (after, left)) :
    left.length ≤ rest.length := by
  simp only [scanOption] at h
  split at h
  · cases h
    exact Nat.le_refl _
  · cases h
  · cases h
    exact Nat.le_refl _
  · exact length_takeValue_le h
  · split at h
    · cases h
      exact Nat.le_refl _
    · cases h

/-- With `mixed`, options may stand behind positional arguments; without it, the first positional
argument ends the options. -/
def scan (options : Table OptionKind) (mixed : Bool) : List String → Scan → Option Scan
  | [], s => some s
  | argument :: rest, s =>
    if argument = "--" then some { s with positional := s.positional ++ rest }
    else if isOption argument then
      match _h : scanOption options argument rest s with
      | some (s, left) => scan options mixed left s
      | none => none
    else if mixed then scan options mixed rest { s with positional := s.positional ++ [argument] }
    else some { s with positional := s.positional ++ argument :: rest }
termination_by arguments => arguments.length
decreasing_by
  · exact Nat.lt_succ_of_le (length_scanOption_le _h)
  · exact Nat.lt_succ_self _

def exitHelp : Nat := 0

def exitUsage : Nat := 2

/-- The scan of arguments that ask for no help, or the exit status. -/
def read (options : Table OptionKind) (mixed : Bool) (arguments : List String) : Except Nat Scan :=
  match scan (options.insert help .flag) mixed arguments {} with
  | none => .error exitUsage
  | some s => if s.flags.contains help then .error exitHelp else .ok s

/-! ## Sub-commands -/

inductive Name where
  | search
  | elements
  | snippet
  | analyze
  | serve
deriving DecidableEq, Repr

namespace Name

def text : Name → String
  | .search => "search"
  | .elements => "elements"
  | .snippet => "snippet"
  | .analyze => "analyze"
  | .serve => "serve"

def all : List Name := [.search, .elements, .snippet, .analyze, .serve]

def named? (name : String) : Option Name := all.find? fun n => n.text == name

def options : Name → Table OptionKind
  | .search => []
  | .elements => []
  | .snippet => []
  | .analyze => [("--language", .value), ("--show-ast", .flag)]
  | .serve => [("--transport", .value), ("--host", .value), ("--port", .value)]

end Name

def select (arguments : List String) : Except Nat (Name × List String) := do
  let s ← read [] false arguments
  match s.positional with
  | [] => .error exitUsage
  | name :: rest =>
    match Name.named? name with
    | some name => .ok (name, rest)
    | none => .error exitUsage

end Command

/-- What the command line asks for. -/
inductive Command where
  | search (path query : String)
  | elements (path kind : String)
  | snippet (path : String) (row column : Int)
  | analyze (path : String) (language : Option String) (showThin : Bool)
  | serve (transport host : String) (port : Int)
deriving DecidableEq, Repr

namespace Command

/-- A row or a column. -/
def place? (argument : String) : Option Int :=
  match Numeral.int? argument.toList with
  | some n => if n < 0 then none else some n
  | none => none

def ofScan? (name : Name) (s : Scan) : Option Command :=
  match name, s.positional with
  | .search, [path, query] => some (.search path query)
  | .elements, [path, kind] => some (.elements path kind)
  | .snippet, [path, row, column] => do
    return .snippet path (← place? row) (← place? column)
  | .analyze, [path] =>
    some (.analyze path (s.values.get? "--language") (s.flags.contains "--show-ast"))
  | .serve, [] => do
    let port ← Numeral.int? ((s.values.get? "--port").getD "8000").toList
    return .serve ((s.values.get? "--transport").getD "stdio")
      ((s.values.get? "--host").getD "127.0.0.1") port
  | _, _ => none

def Name.command (name : Name) (arguments : List String) : Except Nat Command := do
  match ofScan? name (← read name.options true arguments) with
  | some command => .ok command
  | none => .error exitUsage

end Command
end CodeIndex
