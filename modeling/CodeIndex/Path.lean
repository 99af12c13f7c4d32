/-!
# CodeIndex.Path

Paths with `/` between their components, and the file ids they stand for.

* `components`: the components of a path without the empty ones and the `.` ones.
* `resolve`: the components from the root on, where `..` goes one level up and stays at the root.
* `canonical`: the absolute path that a path stands for in a working directory. There are no links, so
  that all spellings of one file have one id.
-/

namespace CodeIndex
namespace Path

/-- The parts between slashes, empty ones included. -/
def segments : List Char → List (List Char)
  | [] => [[]]
  | c :: path =>
    if c = '/' then [] :: segments path
    else
      match segments path with
      | [] => [[c]]
      | s :: rest => (c :: s) :: rest

def components (path : List Char) : List (List Char) :=
  (segments path).filter fun s => s ≠ [] && s ≠ ['.']

/-- One component after the components above it, nearest first. -/
def enter (above : List (List Char)) (component : List Char) : List (List Char) :=
  if component = ['.', '.'] then above.drop 1 else component :: above

def resolve (components : List (List Char)) : List (List Char) :=
  (components.foldl enter []).reverse

def join : List (List Char) → List Char
  | [] => ['/']
  | cs => cs.flatMap fun c => '/' :: c

/-- A path with the character U+0000 names no file. -/
def hasNul (path : String) : Bool := path.toList.contains '\x00'

def isAbsolute (path : List Char) : Bool := path.head? == some '/'

/-- The components of a path behind those of the directory that it starts from. -/
def fullComponents (directory path : List Char) : List (List Char) :=
  if isAbsolute path then components path else components directory ++ components path

def canonical (directory path : String) : String :=
  String.ofList (join (resolve (fullComponents directory.toList path.toList)))

/-- The last component; `..` counts as a name here. -/
def fileName (path : String) : List Char := (components path.toList).getLast?.getD []

/-- The last dot of a name and what follows, unless the dot is the first or the last character. -/
def suffix (name : List Char) : List Char :=
  let after := (name.reverse.takeWhile (· ≠ '.')).reverse
  let dot := name.length - (after.length + 1)
  if after ≠ [] ∧ after.length < name.length ∧ 0 < dot then '.' :: after else []

end Path
end CodeIndex
