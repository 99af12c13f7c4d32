import CodeIndex.Text.CaseTable
import CodeIndex.Text.PrintableTable

/-!
# CodeIndex.Text.Quoted

A text between quotes, for messages: single quotes, unless the text has a single quote and no double
one. Backslash and quote are escaped, and so is every character that is not printable.
-/

namespace CodeIndex
namespace Quoted

def isPrintable (c : Char) : Bool :=
  !CaseTable.inRanges PrintableTable.unprintableRanges c.toNat

def hexDigit (n : Nat) : Char := Char.ofNat (if n < 10 then 0x30 + n else 0x57 + n)

/-- The last `width` hexadecimal digits of a number, in lower case. -/
def hexDigits : (width : Nat) → Nat → List Char
  | 0, _ => []
  | width + 1, n => hexDigits width (n / 16) ++ [hexDigit (n % 16)]

def escapeChar (quote c : Char) : List Char :=
  if c = quote ∨ c = '\\' then ['\\', c]
  else if c = '\t' then ['\\', 't']
  else if c = '\n' then ['\\', 'n']
  else if c = '\r' then ['\\', 'r']
  else if isPrintable c then [c]
  else if c.toNat < 0x100 then '\\' :: 'x' :: hexDigits 2 c.toNat
  else if c.toNat < 0x10000 then '\\' :: 'u' :: hexDigits 4 c.toNat
  else '\\' :: 'U' :: hexDigits 8 c.toNat

def quoteOf (text : List Char) : Char :=
  if '\'' ∈ text ∧ '"' ∉ text then '"' else '\''

def encode (text : List Char) : List Char :=
  let quote := quoteOf text
  quote :: text.flatMap (escapeChar quote) ++ [quote]

end Quoted
end CodeIndex
