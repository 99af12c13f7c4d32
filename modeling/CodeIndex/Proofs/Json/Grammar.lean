import CodeIndex.Json.Value
import CodeIndex.Number.Decimal
import CodeIndex.Table

/-!
# CodeIndex.Proofs.Json.Grammar

The grammar of RFC 8259, with the value that a text denotes. The white space that may stand between
tokens is a parameter: `spaces` in the grammar itself, and nothing for texts without white space.

* `Characters`: the inside of a string literal, with the characters that it stands for.
* `Number`: a numeral. Without a fraction and an exponent it is an integer.
* `Denotes`, `Items`, `Fields`: a value, the items of an array, and the fields of an object. Of fields
  with the same key the last one counts.
* `Text`: a whole text, white space around it included.
-/

namespace CodeIndex
namespace Json

def spaces : List Char := [' ', '\t', '\n', '\r']

namespace Grammar

/-! ## Strings -/

def HexDigit (c : Char) (n : Nat) : Prop :=
  "0123456789abcdef".toList[n]? = some c ∨ "0123456789ABCDEF".toList[n]? = some c

inductive CodeUnit : List Char → Nat → Prop where
  | digits {a b c d : Char} {i j k l : Nat} :
      HexDigit a i → HexDigit b j → HexDigit c k → HexDigit d l →
        CodeUnit [a, b, c, d] (i * 0x1000 + j * 0x100 + k * 0x10 + l)

/-- The letters that stand behind a backslash, with their characters. -/
def escapes : List (Char × Char) := [
  ('"', '"'), ('\\', '\\'), ('/', '/'), ('b', '\x08'), ('f', '\x0c'), ('n', '\n'), ('r', '\r'),
  ('t', '\t')]

def IsHigh (n : Nat) : Prop := 0xD800 ≤ n ∧ n < 0xDC00

def IsLow (n : Nat) : Prop := 0xDC00 ≤ n ∧ n < 0xE000

inductive Character : List Char → Char → Prop where
  | plain {c : Char} : 0x20 ≤ c.toNat → c ≠ '"' → c ≠ '\\' → Character [c] c
  | escape {letter c : Char} : (letter, c) ∈ escapes → Character ['\\', letter] c
  | unit {t : List Char} {n : Nat} : CodeUnit t n → ¬ IsHigh n → ¬ IsLow n →
      Character ('\\' :: 'u' :: t) (Char.ofNat n)
  | pair {t u : List Char} {high low : Nat} : CodeUnit t high → IsHigh high → CodeUnit u low →
      IsLow low →
        Character ('\\' :: 'u' :: t ++ '\\' :: 'u' :: u)
          (Char.ofNat (0x10000 + (high - 0xD800) * 0x400 + (low - 0xDC00)))

inductive Characters : List Char → List Char → Prop where
  | nil : Characters [] []
  | cons {t ts : List Char} {c : Char} {cs : List Char} : Character t c → Characters ts cs →
      Characters (t ++ ts) (c :: cs)

/-! ## Numbers -/

/-- At least one digit. -/
def Digits (ds : List Char) : Prop := ds ≠ [] ∧ ∀ d ∈ ds, d.isDigit

/-- A whole part has no zero before other digits. -/
inductive Whole : List Char → Prop where
  | zero : Whole ['0']
  | digits {c : Char} {ds : List Char} : c ≠ '0' → Digits (c :: ds) → Whole (c :: ds)

/-- A fraction, with its digits. -/
inductive Fraction : List Char → List Char → Prop where
  | none : Fraction [] []
  | some {ds : List Char} : Digits ds → Fraction ('.' :: ds) ds

inductive Exponent : List Char → Option Int → Prop where
  | none : Exponent [] none
  | unsigned {e : Char} {ds : List Char} : e = 'e' ∨ e = 'E' → Digits ds →
      Exponent (e :: ds) (some (Decimal.digitsValue ds))
  | plus {e : Char} {ds : List Char} : e = 'e' ∨ e = 'E' → Digits ds →
      Exponent (e :: '+' :: ds) (some (Decimal.digitsValue ds))
  | minus {e : Char} {ds : List Char} : e = 'e' ∨ e = 'E' → Digits ds →
      Exponent (e :: '-' :: ds) (some (-(Decimal.digitsValue ds : Int)))

def sign (negative : Bool) : List Char := if negative then ['-'] else []

inductive Number : List Char → Value → Prop where
  | int (negative : Bool) {ds : List Char} : Whole ds →
      Number (sign negative ++ ds)
        (.int (if negative then -(Decimal.digitsValue ds : Int) else Decimal.digitsValue ds))
  | float (negative : Bool) {ds f fs e : List Char} {power : Option Int} : Whole ds →
      Fraction f fs → Exponent e power → f ++ e ≠ [] →
        Number (sign negative ++ ds ++ f ++ e)
          (.float (Decimal.toFloat
            ⟨negative, Decimal.digitsValue (ds ++ fs), power.getD 0 - fs.length⟩))

/-! ## Values -/

def quoted (t : List Char) : List Char := '"' :: t ++ ['"']

mutual

inductive Denotes (blanks : List Char) : List Char → Value → Prop where
  | null : Denotes blanks ['n', 'u', 'l', 'l'] .null
  | boolTrue : Denotes blanks ['t', 'r', 'u', 'e'] (.bool true)
  | boolFalse : Denotes blanks ['f', 'a', 'l', 's', 'e'] (.bool false)
  | number {t : List Char} {v : Value} : Number t v → Denotes blanks t v
  | string {t s : List Char} : Characters t s → Denotes blanks (quoted t) (.str (String.ofList s))
  | emptyArray {b : List Char} : b ⊆ blanks → Denotes blanks ('[' :: b ++ [']']) (.arr [])
  | array {t : List Char} {items : List Value} : Items blanks t items →
      Denotes blanks ('[' :: t ++ [']']) (.arr items)
  | emptyObject {b : List Char} : b ⊆ blanks → Denotes blanks ('\x7b' :: b ++ ['\x7d']) (.obj [])
  | object {t : List Char} {fields : List (String × Value)} : Fields blanks t fields →
      Denotes blanks ('\x7b' :: t ++ ['\x7d']) (.obj (Table.ofPairs fields))

inductive Items (blanks : List Char) : List Char → List Value → Prop where
  | last {b t b' : List Char} {v : Value} : b ⊆ blanks → Denotes blanks t v → b' ⊆ blanks →
      Items blanks (b ++ t ++ b') [v]
  | more {b t b' ts : List Char} {v : Value} {items : List Value} : b ⊆ blanks →
      Denotes blanks t v → b' ⊆ blanks → Items blanks ts items →
        Items blanks (b ++ t ++ b' ++ ',' :: ts) (v :: items)

inductive Fields (blanks : List Char) : List Char → List (String × Value) → Prop where
  | last {a k a' b t b' key : List Char} {v : Value} : a ⊆ blanks → Characters k key →
      a' ⊆ blanks → b ⊆ blanks → Denotes blanks t v → b' ⊆ blanks →
        Fields blanks (a ++ quoted k ++ a' ++ ':' :: b ++ t ++ b') [(String.ofList key, v)]
  | more {a k a' b t b' ts key : List Char} {v : Value} {fields : List (String × Value)} :
      a ⊆ blanks → Characters k key → a' ⊆ blanks → b ⊆ blanks → Denotes blanks t v →
        b' ⊆ blanks → Fields blanks ts fields →
          Fields blanks (a ++ quoted k ++ a' ++ ':' :: b ++ t ++ b' ++ ',' :: ts)
            ((String.ofList key, v) :: fields)

end

inductive Text (blanks : List Char) : List Char → Value → Prop where
  | mk {b t b' : List Char} {v : Value} : b ⊆ blanks → Denotes blanks t v → b' ⊆ blanks →
      Text blanks (b ++ t ++ b') v

end Grammar
end Json
end CodeIndex
