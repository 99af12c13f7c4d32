/-!
# CodeIndex.Text.Utf8

UTF-8 over lists of bytes.

* `encode` writes a text as bytes.
* `pieces` cuts any byte string into characters and ill-formed pieces. An ill-formed piece is as long
  as the beginning of some well-formed character that stands there, and one byte long if there is none.
* `decode?` refuses a byte string that has an ill-formed piece; `decodeLossy` writes one replacement
  character for each of them.
-/

namespace CodeIndex
namespace Utf8

def encode (text : List Char) : List UInt8 := text.flatMap String.utf8EncodeChar

/-- What a first byte announces: the number of bytes that follow, the range of the first of them,
and the leading bits of the code point. -/
structure Lead where
  more : Nat
  low : Nat
  high : Nat
  bits : Nat

def lead? (byte : UInt8) : Option Lead :=
  let b := byte.toNat
  if b < 0x80 then some ⟨0, 0x80, 0xBF, b⟩
  else if b < 0xC2 then none
  else if b < 0xE0 then some ⟨1, 0x80, 0xBF, b - 0xC0⟩
  else if b = 0xE0 then some ⟨2, 0xA0, 0xBF, 0⟩
  else if b = 0xED then some ⟨2, 0x80, 0x9F, 0xD⟩
  else if b < 0xF0 then some ⟨2, 0x80, 0xBF, b - 0xE0⟩
  else if b = 0xF0 then some ⟨3, 0x90, 0xBF, 0⟩
  else if b < 0xF4 then some ⟨3, 0x80, 0xBF, b - 0xF0⟩
  else if b = 0xF4 then some ⟨3, 0x80, 0x8F, 4⟩
  else none

/-- Reads `more` further bytes, the first of them between `low` and `high`. The result is the
character, or `none` at the first byte that does not fit, and the bytes that were not used. -/
def follow : (more low high bits : Nat) → List UInt8 → Option Char × List UInt8
  | 0, _, _, bits, bytes => (some (Char.ofNat bits), bytes)
  | _ + 1, _, _, _, [] => (none, [])
  | more + 1, low, high, bits, byte :: bytes =>
    if low ≤ byte.toNat ∧ byte.toNat ≤ high then
      follow more 0x80 0xBF (bits * 64 + (byte.toNat - 0x80)) bytes
    else (none, byte :: bytes)

/-- The piece that starts with `byte`, and what is left. -/
def piece (byte : UInt8) (bytes : List UInt8) : Option Char × List UInt8 :=
  match lead? byte with
  | none => (none, bytes)
  | some l => follow l.more l.low l.high l.bits bytes

theorem length_follow_le (more low high bits : Nat) (bytes : List UInt8) :
    (follow more low high bits bytes).2.length ≤ bytes.length := by
  induction bytes generalizing more low high bits with
  | nil => cases more <;> simp [follow]
  | cons byte bytes ih =>
    cases more with
    | zero => simp [follow]
    | succ more =>
      simp only [follow]
      split
      · exact Nat.le_succ_of_le (ih ..)
      · simp

theorem length_piece_le (byte : UInt8) (bytes : List UInt8) :
    (piece byte bytes).2.length ≤ bytes.length := by
  unfold piece
  split
  · simp
  · exact length_follow_le ..

/-- The characters and ill-formed pieces (`none`) of a byte string, in order. -/
def pieces : List UInt8 → List (Option Char)
  | [] => []
  | byte :: bytes =>
    let next := piece byte bytes
    next.1 :: pieces next.2
termination_by bytes => bytes.length
decreasing_by exact Nat.lt_succ_of_le (length_piece_le byte bytes)

theorem pieces_cons (byte : UInt8) (bytes : List UInt8) :
    pieces (byte :: bytes) = (piece byte bytes).1 :: pieces (piece byte bytes).2 := by
  rw [pieces]

def replacement : Char := '\uFFFD'

def decodeLossy (bytes : List UInt8) : List Char :=
  (pieces bytes).map fun c => c.getD replacement

def decode? (bytes : List UInt8) : Option (List Char) :=
  (pieces bytes).mapM id

end Utf8
end CodeIndex
