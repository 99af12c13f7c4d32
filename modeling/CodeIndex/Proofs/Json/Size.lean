import CodeIndex.Json.Text
import CodeIndex.Settings
import Mathlib.Algebra.GroupWithZero.Nat
import Mathlib.Data.List.Infix
import Mathlib.Data.String.Basic

/-!
# CodeIndex.Proofs.Json.Size

How long compact texts are.

* `Measure`: the length of a text; ASCII characters are one long.
* `Encoding.Uniform`: the encodings with tokens of one size. Under each of them, texts that are at least four
  apart have different numbers of tokens (`exists_tells`), also when these are made of four characters each.
* `size_arr`, `size_obj`: the length of an array and of an object, from those of their parts.
-/

namespace CodeIndex

/-- How long characters are. -/
structure Measure where
  weight : Char → Nat
  weight_ascii : ∀ {c : Char}, c.toNat < 128 → weight c = 1

namespace Measure

def characters : Measure := ⟨fun _ => 1, fun _ => rfl⟩

def bytes : Measure where
  weight := Char.utf8Size
  weight_ascii h := by
    rw [Char.utf8Size_eq_one_iff, UInt32.le_iff_toNat_le]
    exact Nat.le_of_lt_succ h

variable (m : Measure)

def size (text : List Char) : Nat := (text.map m.weight).sum

@[simp] theorem size_nil : m.size [] = 0 := rfl

@[simp] theorem size_cons (c : Char) (text : List Char) :
    m.size (c :: text) = m.weight c + m.size text := by
  simp [size]

@[simp] theorem size_append (s t : List Char) : m.size (s ++ t) = m.size s + m.size t := by
  simp [size]

theorem size_ascii {text : List Char} (h : text.all fun c => c.toNat < 128) :
    m.size text = text.length := by
  induction text with
  | nil => rfl
  | cons c text ih =>
    rw [List.all_cons, Bool.and_eq_true, decide_eq_true_eq] at h
    rw [size_cons, m.weight_ascii h.1, ih h.2, List.length_cons, Nat.add_comm]

theorem size_flatMap_le_of_infix {s t : List Char} (h : s <:+: t) (f : Char → List Char) :
    m.size (s.flatMap f) ≤ m.size (t.flatMap f) := by
  obtain ⟨before, after, rfl⟩ := h
  simp only [List.flatMap_append, size_append]
  omega

theorem size_characters (text : List Char) : characters.size text = text.length := by
  induction text with
  | nil => rfl
  | cons c text ih => rw [size_cons, ih, List.length_cons, characters, Nat.add_comm]

theorem size_bytes (text : List Char) : bytes.size text = String.utf8Len text := by
  induction text with
  | nil => rfl
  | cons c text ih => rw [size_cons, ih, String.utf8Len_cons, bytes, Nat.add_comm]

/-- Texts that are at least four apart have different numbers of tokens. -/
def Tells (e : Encoding) : Prop :=
  ∀ s t : List Char, m.size s + 4 ≤ m.size t → e.count (String.ofList s) < e.count (String.ofList t)

end Measure

namespace Encoding

/-- All tokens are of one size: four characters, one character, or one byte. -/
inductive Uniform : Encoding → Prop where
  | quarter : Uniform .quarter
  | chars : Uniform .chars
  | bytes : Uniform .bytes

theorem exists_tells {e : Encoding} (h : e.Uniform) : ∃ m : Measure, m.Tells e := by
  cases h with
  | quarter =>
    refine ⟨.characters, fun s t h => ?_⟩
    rw [Measure.size_characters, Measure.size_characters] at h
    simp only [quarter, String.length_ofList]
    omega
  | chars =>
    refine ⟨.characters, fun s t h => ?_⟩
    rw [Measure.size_characters, Measure.size_characters] at h
    simp only [chars, String.length_ofList]
    omega
  | bytes =>
    refine ⟨.bytes, fun s t h => ?_⟩
    rw [Measure.size_bytes, Measure.size_bytes] at h
    simp only [bytes, String.utf8ByteSize_ofList]
    omega

end Encoding

namespace Json

variable (m : Measure)

/-- The length of a value in compact form. -/
def sizeOfValue (v : Value) : Nat := m.size (text .compact v)

def sizeOfItems (items : List Value) : Nat := (items.map fun v => sizeOfValue m v + 1).sum

def sizeOfField (f : String × Value) : Nat :=
  m.size (Style.compact.string f.1) + sizeOfValue m f.2 + 2

def sizeOfFields (fields : List (String × Value)) : Nat := (fields.map (sizeOfField m)).sum

@[simp] theorem sizeOfItems_cons (v : Value) (items : List Value) :
    sizeOfItems m (v :: items) = sizeOfValue m v + 1 + sizeOfItems m items := by
  simp [sizeOfItems]

@[simp] theorem sizeOfFields_nil : sizeOfFields m [] = 0 := rfl

@[simp] theorem sizeOfFields_cons (f : String × Value) (fields : List (String × Value)) :
    sizeOfFields m (f :: fields) = sizeOfField m f + sizeOfFields m fields := by
  simp [sizeOfFields]

@[simp] theorem sizeOfFields_append (fields more : List (String × Value)) :
    sizeOfFields m (fields ++ more) = sizeOfFields m fields + sizeOfFields m more := by
  simp [sizeOfFields]

theorem size_string (s : String) :
    m.size (Style.compact.string s) = m.size (s.toList.flatMap escape) + 2 := by
  simp (disch := decide) only [Style.string, Style.compact, quote, List.cons_append,
    Measure.size_cons, Measure.size_append, Measure.size_nil, Measure.weight_ascii]
  omega

theorem size_textItems (items : List Value) :
    m.size (textItems .compact false items) = sizeOfItems m items := by
  induction items with
  | nil => rfl
  | cons v items ih =>
    rw [textItems, if_neg Bool.false_ne_true, Measure.size_append, Measure.size_append, ih,
      sizeOfItems_cons, sizeOfValue]
    simp (disch := decide) only [Style.compact, Measure.size_cons, Measure.size_nil,
      Measure.weight_ascii]
    omega

theorem size_textFields (fields : List (String × Value)) :
    m.size (textFields .compact false fields) = sizeOfFields m fields := by
  induction fields with
  | nil => rfl
  | cons f fields ih =>
    obtain ⟨key, v⟩ := f
    rw [textFields, if_neg Bool.false_ne_true, Measure.size_append, ih, sizeOfFields_cons]
    simp only [Measure.size_append, sizeOfField, sizeOfValue]
    simp (disch := decide) only [Style.compact, Measure.size_cons, Measure.size_nil,
      Measure.weight_ascii]
    omega

/-- The first item has no comma before it. -/
theorem size_arr (items : List Value) : sizeOfValue m (.arr items) = sizeOfItems m items - 1 + 2 := by
  cases items with
  | nil => exact m.size_ascii (by decide)
  | cons v items =>
    rw [sizeOfValue, text, textItems, if_pos rfl, sizeOfItems_cons, ← size_textItems, sizeOfValue]
    simp (disch := decide) only [Measure.size_cons, Measure.size_append, Measure.size_nil,
      Measure.weight_ascii]
    omega

theorem size_obj (fields : List (String × Value)) :
    sizeOfValue m (.obj fields) = sizeOfFields m fields - 1 + 2 := by
  cases fields with
  | nil => exact m.size_ascii (by decide)
  | cons f fields =>
    obtain ⟨key, v⟩ := f
    rw [sizeOfValue, text, textFields, if_pos rfl, sizeOfFields_cons, ← size_textFields]
    simp only [Measure.size_append, Measure.size_cons, sizeOfField, sizeOfValue]
    simp (disch := decide) only [Style.compact, leftBrace, rightBrace, Measure.size_cons,
      Measure.size_nil, Measure.weight_ascii]
    omega

end Json
end CodeIndex
