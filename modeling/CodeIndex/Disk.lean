import CodeIndex.Error
import CodeIndex.Path
import CodeIndex.Table
import CodeIndex.Text.Space
import CodeIndex.Text.Utf8

/-!
# CodeIndex.Disk

The files and directories that sources are read from, by file id. Writing creates the directories
above, and they stay when what they hold is deleted.

* `Disk.bytes`: the bytes of a file; the components of its path are entered from the root on.
* `Disk.text`: the file as text, strict UTF-8 with normalized line ends.
-/

namespace CodeIndex

namespace Disk

inductive Entry where
  | file (bytes : List UInt8)
  /-- A file that may not be opened. -/
  | locked
  | directory
deriving DecidableEq

end Disk

abbrev Disk := Table Disk.Entry

namespace Disk

def idOf (components : List (List Char)) : String := String.ofList (Path.join components)

/-- The root is always a directory. -/
def look (disk : Disk) (components : List (List Char)) : Option Entry :=
  if components = [] then some .directory else disk.get? (idOf components)

/-- The longest name of a component, in bytes. -/
def maxName : Nat := 255

/-- Enters the remaining components below those in `above`. -/
def enter (disk : Disk) (above : List (List Char)) :
    List (List Char) → Except ReadFault (List UInt8)
  | [] =>
    match disk.look above with
    | some (.file bytes) => .ok bytes
    | some .locked => .error .denied
    | some .directory => .error .directory
    | none => .error .missing
  | c :: below =>
    match disk.look above with
    | some .directory =>
      if maxName < (Utf8.encode c).length then .error .nameTooLong
      else enter disk (above ++ [c]) below
    | some (.file _) | some .locked => .error .notDirectory
    | none => .error .missing

def bytes (disk : Disk) (file : String) : Except ReadFault (List UInt8) :=
  disk.enter [] (Path.components file.toList)

/-- The text that bytes are read as. -/
def decode (bytes : List UInt8) : Except ReadFault String :=
  match Utf8.decode? bytes with
  | some text => .ok (String.ofList (Newline.normalize text))
  | none => .error .notUtf8

def text (disk : Disk) (file : String) : Except ReadFault String :=
  match disk.bytes file with
  | .ok bytes => decode bytes
  | .error fault => .error fault

/-- Makes the directories above a file, unless something is there. -/
def addParents (disk : Disk) (above : List (List Char)) : List (List Char) → Disk
  | [] => disk
  | c :: below =>
    let here := match disk.look above with
      | some _ => disk
      | none => disk.insert (idOf above) .directory
    addParents here (above ++ [c]) below

def write (disk : Disk) (file : String) (entry : Entry) : Disk :=
  let components := Path.components file.toList
  (disk.addParents [] components).insert (idOf components) entry

def delete (disk : Disk) (file : String) : Disk := disk.erase file

end Disk
end CodeIndex
