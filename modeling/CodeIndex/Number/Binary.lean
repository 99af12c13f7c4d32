import CodeIndex.Number.Decimal

/-!
# CodeIndex.Number.Binary

Finite doubles as exact numbers `± mantissa · 2 ^ exponent`, read off their bits.

`Places` writes them with a fixed count of places after the point. The exact value is rounded to the
nearest multiple of the last place; a half goes to the even neighbour.
-/

namespace CodeIndex

structure Binary where
  negative : Bool
  mantissa : Nat
  exponent : Int
deriving Repr, DecidableEq

namespace Binary

def pow2 (k : Nat) : Nat := Nat.pow 2 k

def mantissaOfBits (bits : UInt64) : Nat := bits.toNat % pow2 52

def exponentOfBits (bits : UInt64) : Nat := bits.toNat / pow2 52 % pow2 11

def negativeOfBits (bits : UInt64) : Bool := bits.toNat / pow2 63 = 1

/-- `none` for infinities and for what is not a number. -/
def ofBits? (bits : UInt64) : Option Binary :=
  let m := mantissaOfBits bits
  match exponentOfBits bits with
  | 0 => some ⟨negativeOfBits bits, m, -1074⟩
  | e + 1 => if e = 2046 then none else some ⟨negativeOfBits bits, m + pow2 52, e - 1074⟩

def ofFloat? (x : Float) : Option Binary := ofBits? x.toBits

/-- Numerator and denominator of the absolute value times a power of two. -/
def ratio (mantissa : Nat) (exponent : Int) : Nat × Nat :=
  if exponent < 0 then (mantissa, pow2 exponent.natAbs) else (mantissa * pow2 exponent.natAbs, 1)

end Binary

namespace Places

def roundDiv (numerator denominator : Nat) : Nat :=
  let q := numerator / denominator
  let r := 2 * (numerator % denominator)
  if r < denominator ∨ (r = denominator ∧ q % 2 = 0) then q else q + 1

def text (places : Nat) (b : Binary) : List Char :=
  let (numerator, denominator) := Binary.ratio b.mantissa b.exponent
  let digits := Decimal.decimalDigits (roundDiv (numerator * Decimal.pow10 places) denominator)
  let padded := Decimal.zeros (places + 1 - digits.length) ++ digits
  let whole := padded.length - places
  (if b.negative then ['-'] else []) ++ padded.take whole ++
    if places = 0 then [] else '.' :: padded.drop whole

/-- Infinities and what is not a number are written as a word. -/
def ofFloat (places : Nat) (x : Float) : String :=
  match Binary.ofFloat? x with
  | some b => String.ofList (text places b)
  | none => if x.isNaN then "nan" else if x < 0 then "-inf" else "inf"

end Places
end CodeIndex
