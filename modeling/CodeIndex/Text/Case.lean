import CodeIndex.Text.CaseTable

/-!
# CodeIndex.Text.Case

Full case mapping of texts.

* `lower`: one character at a time, but a capital sigma that ends a word becomes the final form and
  the dotted capital I becomes two characters.
* `upper`: one character at a time; some characters have an upper case of two or three.
-/

namespace CodeIndex

open CaseTable

def isCased (c : Char) : Bool := inRanges casedRanges c.toNat

def isCaseIgnorable (c : Char) : Bool := inRanges ignorableRanges c.toNat

/-- The image under a table of ranges; a character that no range holds is its own image. -/
def mapCase (ranges : List CaseRange) (c : Char) : Char :=
  match ranges.findSome? fun r => r.image? c.toNat with
  | some n => Char.ofNat n
  | none => c

def lowerChar (c : Char) : List Char :=
  if c = 'İ' then ['i', '\u0307'] else [mapCase lowerRanges c]

/-- Whether the nearest character that is not case-ignorable is cased. -/
def meetsCased (text : List Char) : Bool :=
  match text.dropWhile isCaseIgnorable with
  | c :: _ => isCased c
  | [] => false

/-- A sigma ends a word if a cased character comes before it and none after it. `before` is the text
on its left, nearest character first. -/
def endsWord (before after : List Char) : Bool := meetsCased before && !meetsCased after

def lowerFrom (before : List Char) : List Char → List Char
  | [] => []
  | c :: after =>
    (if c = 'Σ' then [if endsWord before after then 'ς' else 'σ'] else lowerChar c) ++
      lowerFrom (c :: before) after

def lower (text : List Char) : List Char := lowerFrom [] text

def upperChar (c : Char) : List Char :=
  match upperSpecial.lookup c.toNat with
  | some image => image.map Char.ofNat
  | none => [mapCase upperRanges c]

def upper (text : List Char) : List Char := text.flatMap upperChar

end CodeIndex
