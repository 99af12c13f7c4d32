import CodeIndex.Number.Binary

/-!
# CodeIndex.Number.Shortest

The shortest decimal that reads back as a given double, and the nearest one among those.

The reals that round to the double form an interval, which holds its ends iff the mantissa is even.
For one digit, two digits, and so on, the two neighbours of the double on the grid of decimals with
that many digits are tried; the first grid with a neighbour in the interval has the answer.
-/

namespace CodeIndex
namespace Shortest

/-- A double and the ends of its interval, as numerators over one denominator. -/
structure Interval where
  value : Nat
  low : Nat
  high : Nat
  denominator : Nat
  closed : Bool

def interval (b : Binary) : Interval :=
  let scale (m : Nat) := Binary.ratio m (b.exponent - 2)
  let gap := if b.mantissa = Binary.pow2 52 ∧ -1074 < b.exponent then 1 else 2
  { value := (scale (4 * b.mantissa)).1
    low := (scale (4 * b.mantissa - gap)).1
    high := (scale (4 * b.mantissa + 2)).1
    denominator := (scale 0).2
    closed := b.mantissa % 2 = 0 }

/-- Numerator of `digits · 10 ^ k` and of `n / denominator`, over a common denominator. -/
def onGrid (denominator : Nat) (k : Int) (digits n : Nat) : Nat × Nat :=
  if k < 0 then (digits * denominator, n * Decimal.pow10 k.natAbs)
  else (digits * Decimal.pow10 k.natAbs * denominator, n)

def Interval.holds (i : Interval) (k : Int) (digits : Nat) : Bool :=
  let low := onGrid i.denominator k digits i.low
  let high := onGrid i.denominator k digits i.high
  if i.closed then low.2 ≤ low.1 && high.1 ≤ high.2 else low.2 < low.1 && high.1 < high.2

/-- The grid point below the value, and the distances to it and to the next one. -/
def Interval.below (i : Interval) (k : Int) : Nat × Nat × Nat :=
  let g := onGrid i.denominator k 1 i.value
  (g.2 / g.1, g.2 % g.1, g.1 - g.2 % g.1)

/-- The nearer neighbour in the interval; of two at one distance, the even one. -/
def Interval.neighbour? (i : Interval) (k : Int) : Option Nat :=
  let (d, down, up) := i.below k
  match i.holds k d, i.holds k (d + 1) with
  | false, false => none
  | true, false => some d
  | false, true => some (d + 1)
  | true, true => some (if down < up ∨ (down = up ∧ d % 2 = 0) then d else d + 1)

/-- The exponent of the leading decimal digit of the value. -/
def Interval.leading (i : Interval) : Int :=
  let e : Int := (Decimal.decimalDigits i.value).length - (Decimal.decimalDigits i.denominator).length
  let g := onGrid i.denominator e 1 i.value
  if g.1 ≤ g.2 then e else e - 1

/-- Tries the grids of `count`, `count + 1`, … digits, `fuel` of them. -/
def Interval.search (i : Interval) : (fuel count : Nat) → Nat × Int
  | 0, count =>
    let k := i.leading + 1 - count
    ((i.below k).1, k)
  | fuel + 1, count =>
    let k := i.leading + 1 - count
    match i.neighbour? k with
    | some d => (d, k)
    | none => i.search fuel (count + 1)

/-- Moves the zeros at the end of the digits into the exponent. -/
def dropZeros : (fuel digits : Nat) → (exponent : Int) → Nat × Int
  | 0, digits, exponent => (digits, exponent)
  | fuel + 1, digits, exponent =>
    if digits % 10 = 0 then dropZeros fuel (digits / 10) (exponent + 1) else (digits, exponent)

/-- Seventeen digits always suffice. -/
def ofBinary (b : Binary) : Decimal :=
  if b.mantissa = 0 then ⟨b.negative, 0, 0⟩
  else
    let (digits, exponent) := (interval b).search 17 1
    let (digits, exponent) := dropZeros 17 digits exponent
    ⟨b.negative, digits, exponent⟩

end Shortest
end CodeIndex
