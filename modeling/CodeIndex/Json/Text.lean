import CodeIndex.Json.Literal
import CodeIndex.Json.Value

/-!
# CodeIndex.Json.Text

The JSON text of a value, by recursion on the value, in two styles.

* `Style.compact`: no white space, characters as they are.
* `Style.ascii`: a blank after each comma and colon, and nothing but printable ASCII.
-/

namespace CodeIndex
namespace Json

/-- What the two styles differ in. -/
structure Style where
  comma : List Char
  colon : List Char
  escape : Char → List Char

def Style.compact : Style := ⟨[','], [':'], Json.escape⟩

def Style.ascii : Style := ⟨[',', ' '], [':', ' '], Json.escapeAscii⟩

def Style.string (style : Style) (s : String) : List Char := quote style.escape s.toList

/-- The text of a value that has no parts. Arrays and objects are not written here. -/
def Style.scalar (style : Style) : Value → List Char
  | .null => ['n', 'u', 'l', 'l']
  | .bool true => ['t', 'r', 'u', 'e']
  | .bool false => ['f', 'a', 'l', 's', 'e']
  | .int n => intText n
  | .float x => floatText x
  | .str s => style.string s
  | .arr _ => []
  | .obj _ => []

def leftBrace : Char := '\x7b'

def rightBrace : Char := '\x7d'

mutual

def text (style : Style) : Value → List Char
  | .arr items => '[' :: textItems style true items ++ [']']
  | .obj fields => leftBrace :: textFields style true fields ++ [rightBrace]
  | v => style.scalar v

/-- Every item but the first has a comma before it. -/
def textItems (style : Style) (first : Bool) : List Value → List Char
  | [] => []
  | v :: items => (if first then [] else style.comma) ++ text style v ++ textItems style false items

def textFields (style : Style) (first : Bool) : List (String × Value) → List Char
  | [] => []
  | (key, v) :: fields =>
    (if first then [] else style.comma) ++ style.string key ++ style.colon ++ text style v ++
      textFields style false fields

end

/-- The printable line that a log shows, of a value whose levels the encoder of the log has room for. -/
def asciiText (v : Value) : String := String.ofList (text .ascii v)

end Json
end CodeIndex
