import CodeIndex.Json.Literal
import CodeIndex.Json.Value
import CodeIndex.Table

/-!
# CodeIndex.Json.Reader

Reading JSON texts by the grammar of RFC 8259.

* `string?`, `number?`: one literal and the text behind it. An escaped surrogate pair is one
  character; a surrogate alone is refused.
* `value?`: one value and the text behind it. The fuel is never used up when it is larger than the
  length of the text.
* `read?`: the value that a whole text holds.
-/

namespace CodeIndex
namespace Json

def isSpace (c : Char) : Bool := c == ' ' || c == '\t' || c == '\n' || c == '\r'

def skipSpace (text : List Char) : List Char := text.dropWhile isSpace

/-! ## Literals -/

def hexValue? (c : Char) : Option Nat :=
  let n := c.toNat
  if 0x30 ≤ n ∧ n ≤ 0x39 then some (n - 0x30)
  else if 0x41 ≤ n ∧ n ≤ 0x46 then some (n - 0x37)
  else if 0x61 ≤ n ∧ n ≤ 0x66 then some (n - 0x57)
  else none

/-- The number of four hexadecimal digits. -/
def codeUnit? : List Char → Option (Nat × List Char)
  | a :: b :: c :: d :: text => do
    let n := (← hexValue? a) * 0x1000 + (← hexValue? b) * 0x100 + (← hexValue? c) * 0x10
    return (n + (← hexValue? d), text)
  | _ => none

def isHighSurrogate (n : Nat) : Bool := 0xD800 ≤ n && n < 0xDC00

def isLowSurrogate (n : Nat) : Bool := 0xDC00 ≤ n && n < 0xE000

def joinSurrogates (high low : Nat) : Nat := 0x10000 + (high - 0xD800) * 0x400 + (low - 0xDC00)

/-- The second half of a surrogate pair. -/
def lowHalf? (high : Nat) : List Char → Option (Char × List Char)
  | '\\' :: 'u' :: text =>
    match codeUnit? text with
    | some (low, text) =>
      if isLowSurrogate low then some (Char.ofNat (joinSurrogates high low), text) else none
    | none => none
  | _ => none

def letter? (c : Char) : Option Char :=
  if c = '"' then some '"'
  else if c = '\\' then some '\\'
  else if c = '/' then some '/'
  else if c = 'b' then some '\x08'
  else if c = 'f' then some '\x0c'
  else if c = 'n' then some '\n'
  else if c = 'r' then some '\r'
  else if c = 't' then some '\t'
  else none

/-- The character of an escape, behind its backslash. -/
def unescape? : List Char → Option (Char × List Char)
  | 'u' :: text =>
    match codeUnit? text with
    | some (n, text) =>
      if isHighSurrogate n then lowHalf? n text
      else if isLowSurrogate n then none
      else some (Char.ofNat n, text)
    | none => none
  | c :: text => (letter? c).map fun letter => (letter, text)
  | [] => none

theorem length_codeUnit? {text rest : List Char} {n : Nat} (h : codeUnit? text = some (n, rest)) :
    text.length = rest.length + 4 := by
  unfold codeUnit? at h
  split at h
  · simp only [Option.bind_eq_bind, Option.bind_eq_some_iff] at h
    obtain ⟨_, _, _, _, _, _, _, _, h⟩ := h
    cases h
    rfl
  · cases h

theorem length_lowHalf?_lt {text rest : List Char} {high : Nat} {c : Char}
    (h : lowHalf? high text = some (c, rest)) : rest.length < text.length := by
  unfold lowHalf? at h
  split at h
  · split at h
    · rename_i hc
      have := length_codeUnit? hc
      split at h
      · simp only [Option.some.injEq, Prod.mk.injEq] at h
        obtain ⟨-, rfl⟩ := h
        simp only [List.length_cons]
        omega
      · cases h
    · cases h
  · cases h

theorem length_unescape?_lt {text rest : List Char} {c : Char}
    (h : unescape? text = some (c, rest)) : rest.length < text.length := by
  unfold unescape? at h
  split at h
  · split at h
    · rename_i hc
      have := length_codeUnit? hc
      split at h
      · have := length_lowHalf?_lt h
        simp only [List.length_cons]
        omega
      · split at h
        · cases h
        · simp only [Option.some.injEq, Prod.mk.injEq] at h
          obtain ⟨-, rfl⟩ := h
          simp only [List.length_cons]
          omega
    · cases h
  · obtain ⟨_, _, h⟩ := Option.map_eq_some_iff.1 h
    simp only [Prod.mk.injEq] at h
    obtain ⟨-, rfl⟩ := h
    exact Nat.lt_succ_self _
  · cases h

/-- The characters of a string, behind its opening quote. -/
def string? : List Char → Option (List Char × List Char)
  | [] => none
  | c :: text =>
    if c = '"' then some ([], text)
    else if c = '\\' then
      match _h : unescape? text with
      | some (c, rest) => (string? rest).map fun s => (c :: s.1, s.2)
      | none => none
    else if c.toNat < 0x20 then none
    else (string? text).map fun s => (c :: s.1, s.2)
termination_by text => text.length
decreasing_by
  · exact Nat.lt_succ_of_lt (length_unescape?_lt _h)
  · exact Nat.lt_succ_self _

/-- A whole part has no zero before other digits. -/
def isWhole (digits : List Char) : Bool :=
  match digits with
  | [] => false
  | ['0'] => true
  | c :: _ => c != '0'

/-- The fraction of a number, without its point. -/
def fraction? : List Char → Option (List Char × List Char)
  | '.' :: text =>
    let digits := Decimal.splitDigits text
    if digits.1 = [] then none else some digits
  | text => some ([], text)

/-- The exponent of a number, if it has one. -/
def exponentPart? : List Char → Option (Option Int × List Char)
  | c :: text =>
    if c = 'e' ∨ c = 'E' then
      let sign := Decimal.splitSign text
      let digits := Decimal.splitDigits sign.2
      let size : Int := Decimal.digitsValue digits.1
      if digits.1 = [] then none else some (some (if sign.1 then -size else size), digits.2)
    else some (none, c :: text)
  | [] => some (none, [])

def unsigned (text : List Char) : Bool × List Char :=
  match text with
  | '-' :: text => (true, text)
  | text => (false, text)

/-- A number without fraction and exponent is an integer. -/
def number? (text : List Char) : Option (Value × List Char) :=
  let sign := unsigned text
  let whole := Decimal.splitDigits sign.2
  if isWhole whole.1 then do
    let (fraction, rest) ← fraction? whole.2
    let (exponent, rest) ← exponentPart? rest
    match fraction, exponent with
    | [], none =>
      let n : Int := Decimal.digitsValue whole.1
      return (.int (if sign.1 then -n else n), rest)
    | _, _ =>
      let d : Decimal :=
        ⟨sign.1, Decimal.digitsValue (whole.1 ++ fraction), exponent.getD 0 - fraction.length⟩
      return (.float d.toFloat, rest)
  else none

/-! ## Values -/

mutual

def value? : (fuel : Nat) → List Char → Option (Value × List Char)
  | 0, _ => none
  | fuel + 1, text =>
    match skipSpace text with
    | 'n' :: 'u' :: 'l' :: 'l' :: text => some (.null, text)
    | 't' :: 'r' :: 'u' :: 'e' :: text => some (.bool true, text)
    | 'f' :: 'a' :: 'l' :: 's' :: 'e' :: text => some (.bool false, text)
    | '"' :: text => (string? text).map fun s => (.str (String.ofList s.1), s.2)
    | '[' :: text =>
      match skipSpace text with
      | ']' :: text => some (.arr [], text)
      | text => (items? fuel text).map fun r => (.arr r.1, r.2)
    | '\x7b' :: text =>
      match skipSpace text with
      | '\x7d' :: text => some (.obj [], text)
      | text => (fields? fuel text).map fun r => (.obj (Table.ofPairs r.1), r.2)
    | text => number? text

/-- The items of an array that is not empty, through its closing bracket. -/
def items? : (fuel : Nat) → List Char → Option (List Value × List Char)
  | 0, _ => none
  | fuel + 1, text =>
    match value? fuel text with
    | some (v, text) =>
      match skipSpace text with
      | ',' :: text => (items? fuel text).map fun r => (v :: r.1, r.2)
      | ']' :: text => some ([v], text)
      | _ => none
    | none => none

/-- The fields of an object that is not empty, through its closing brace. -/
def fields? : (fuel : Nat) → List Char → Option (List (String × Value) × List Char)
  | 0, _ => none
  | fuel + 1, text =>
    match skipSpace text with
    | '"' :: text =>
      match string? text with
      | some (key, text) =>
        match skipSpace text with
        | ':' :: text =>
          match value? fuel text with
          | some (v, text) =>
            match skipSpace text with
            | ',' :: text =>
              (fields? fuel text).map fun r => ((String.ofList key, v) :: r.1, r.2)
            | '\x7d' :: text => some ([(String.ofList key, v)], text)
            | _ => none
          | none => none
        | _ => none
      | none => none
    | _ => none

end

def read? (text : String) : Option Value :=
  match value? (text.length + 1) text.toList with
  | some (v, rest) => if skipSpace rest = [] then some v else none
  | none => none

end Json
end CodeIndex
