import CodeIndex.Number.Shortest
import CodeIndex.Text.Quoted

/-!
# CodeIndex.Json.Literal

How JSON writes a string and a number.

* `escape` leaves every character from the space on as it is, quote and backslash apart.
* `escapeAscii` also escapes all that is not printable ASCII; a character beyond the basic plane
  becomes two escapes, a surrogate pair.
-/

namespace CodeIndex
namespace Json

def unicodeEscape (code : Nat) : List Char := '\\' :: 'u' :: Quoted.hexDigits 4 code

/-- The escapes of one letter. -/
def shortEscape? (c : Char) : Option Char :=
  if c = '"' then some '"'
  else if c = '\\' then some '\\'
  else if c = '\n' then some 'n'
  else if c = '\r' then some 'r'
  else if c = '\t' then some 't'
  else if c = '\x08' then some 'b'
  else if c = '\x0c' then some 'f'
  else none

def escape (c : Char) : List Char :=
  match shortEscape? c with
  | some letter => ['\\', letter]
  | none => if c.toNat < 0x20 then unicodeEscape c.toNat else [c]

def highSurrogate (code : Nat) : Nat := 0xD800 + (code - 0x10000) / 0x400

def lowSurrogate (code : Nat) : Nat := 0xDC00 + (code - 0x10000) % 0x400

def escapeAscii (c : Char) : List Char :=
  match shortEscape? c with
  | some letter => ['\\', letter]
  | none =>
    let n := c.toNat
    if 0x20 ≤ n ∧ n < 0x7F then [c]
    else if n < 0x10000 then unicodeEscape n
    else unicodeEscape (highSurrogate n) ++ unicodeEscape (lowSurrogate n)

def quote (escape : Char → List Char) (text : List Char) : List Char :=
  '"' :: text.flatMap escape ++ ['"']

/-- An integer of any size. A host may limit the digits that it writes and reads, as `Numeral.maxDigits` does
for what a user types; no such limit is part of this. -/
def intText (n : Int) : List Char :=
  if n < 0 then '-' :: Decimal.decimalDigits n.natAbs else Decimal.decimalDigits n.natAbs

/-- A finite double has its shortest decimal; the others are written as words. -/
def floatText (x : Float) : List Char :=
  match Binary.ofFloat? x with
  | some b => (Shortest.ofBinary b).text
  | none => (if x.isNaN then "NaN" else if x < 0 then "-Infinity" else "Infinity").toList

end Json
end CodeIndex
