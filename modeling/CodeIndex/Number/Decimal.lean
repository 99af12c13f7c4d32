/-!
# CodeIndex.Number.Decimal

Decimal numbers `± digits · 10 ^ exponent`, as they are written in a text.

* `ofText?` reads a decimal numeral with an optional fraction and exponent.
* `toFloat` rounds to the nearest double.
* `text` writes it: positional for small exponents, with an exponent of two digits or more otherwise.
-/

namespace CodeIndex

structure Decimal where
  negative : Bool
  digits : Nat
  exponent : Int
deriving Repr, DecidableEq

namespace Decimal

def decimalDigits (n : Nat) : List Char := (toString n).toList

def pow10 (k : Nat) : Nat := Nat.pow 10 k

def zeros (n : Nat) : List Char := List.replicate n '0'

/-! ## Reading -/

def splitSign : List Char → Bool × List Char
  | '-' :: text => (true, text)
  | '+' :: text => (false, text)
  | text => (false, text)

def digitsValue (text : List Char) : Nat :=
  text.foldl (fun n c => n * 10 + (c.toNat - 0x30)) 0

def splitDigits (text : List Char) : List Char × List Char :=
  (text.takeWhile Char.isDigit, text.dropWhile Char.isDigit)

def splitFraction : List Char → List Char × List Char
  | '.' :: text => splitDigits text
  | text => ([], text)

/-- The exponent part; it must be all that is left. -/
def exponent? : List Char → Option Int
  | [] => some 0
  | c :: text =>
    let sign := splitSign text
    if (c = 'e' ∨ c = 'E') ∧ sign.2 ≠ [] ∧ sign.2.all Char.isDigit then
      some (if sign.1 then -(digitsValue sign.2 : Int) else digitsValue sign.2)
    else none

def ofText? (text : List Char) : Option Decimal :=
  let sign := splitSign text
  let whole := splitDigits sign.2
  let fraction := splitFraction whole.2
  if whole.1 = [] ∧ fraction.1 = [] then none
  else (exponent? fraction.2).map fun e =>
    ⟨sign.1, digitsValue (whole.1 ++ fraction.1), e - fraction.1.length⟩

def toFloat (d : Decimal) : Float :=
  let x := Float.ofScientific d.digits (d.exponent < 0) d.exponent.natAbs
  if d.negative then -x else x

/-! ## Writing -/

/-- The point stands after the first `point` digits; it may lie outside of them. -/
def positional (digits : List Char) (point : Int) : List Char :=
  if point ≤ 0 then '0' :: '.' :: zeros (-point).toNat ++ digits
  else if digits.length ≤ point.toNat then digits ++ zeros (point.toNat - digits.length) ++ ['.', '0']
  else digits.take point.toNat ++ '.' :: digits.drop point.toNat

def scientific (digits : List Char) (exponent : Int) : List Char :=
  let fraction := digits.drop 1
  let size := decimalDigits exponent.natAbs
  digits.take 1 ++ (if fraction = [] then [] else '.' :: fraction) ++
    ['e', if exponent < 0 then '-' else '+'] ++ zeros (2 - size.length) ++ size

/-- Positional from 10⁻⁴ up to below 10¹⁶. -/
def text (d : Decimal) : List Char :=
  let digits := decimalDigits d.digits
  let leading := d.exponent + digits.length - 1
  (if d.negative then ['-'] else []) ++
    if d.digits = 0 then ['0', '.', '0']
    else if -4 ≤ leading ∧ leading < 16 then positional digits (leading + 1)
    else scientific digits leading

end Decimal
end CodeIndex
