import CodeIndex.Json.Compact
import Mathlib.Logic.Function.Iterate

/-!
# CodeIndex.Proofs.Json.Compact

The stack writer and the recursion on the value write the same text.

* `chars`: the text that a stack of pieces stands for.
* `write_eq`: writing a stack puts its text behind what is written already.
* `compact_eq`: the compact text of a value is its text by recursion.
* `iterate_turn`: the writer ends after at most so many turns as the stack weighs.
* `compact_encodes`: what the writer gives is what every encoder gives that recurses on the value.
-/

namespace CodeIndex
namespace Json

def Piece.chars : Piece → List Char
  | .raw text => text
  | .value v => text .compact v

def chars (stack : List Piece) : List Char := stack.flatMap Piece.chars

theorem chars_cons (p : Piece) (stack : List Piece) : chars (p :: stack) = p.chars ++ chars stack :=
  List.flatMap_cons

theorem chars_append (s t : List Piece) : chars (s ++ t) = chars s ++ chars t :=
  List.flatMap_append

theorem chars_itemPieces (first : Bool) (items : List Value) :
    chars (itemPieces first items) = textItems .compact first items := by
  induction items generalizing first with
  | nil => rfl
  | cons v items ih =>
    rw [itemPieces, chars_append, chars_cons, ih, textItems, List.append_assoc]
    cases first <;> rfl

theorem chars_fieldPieces (first : Bool) (fields : List (String × Value)) :
    chars (fieldPieces first fields) = textFields .compact first fields := by
  induction fields generalizing first with
  | nil => rfl
  | cons f fields ih =>
    obtain ⟨key, v⟩ := f
    rw [fieldPieces, chars_append, chars_cons, chars_cons, ih, textFields]
    simp only [Piece.chars, List.append_assoc]
    cases first <;> rfl

/-- Taking a value apart keeps its text. -/
theorem chars_pieces (v : Value) : chars (pieces v) = text .compact v := by
  cases v with
  | arr items =>
    rw [pieces, chars_append, chars_cons, chars_itemPieces]
    rfl
  | obj fields =>
    rw [pieces, chars_append, chars_cons, chars_fieldPieces]
    rfl
  | _ => exact List.append_nil _

theorem write_eq (stack : List Piece) (written : String) :
    write stack written = written ++ String.ofList (chars stack) := by
  induction stack, written using write.induct with
  | case1 written => simp [write, chars]
  | case2 text stack written ih =>
    rw [write, ih, chars_cons, String.append_assoc, ← String.ofList_append]
    rfl
  | case3 v stack written ih => rw [write, ih, chars_append, chars_pieces, chars_cons]; rfl

theorem compact_eq (v : Value) : compact v = String.ofList (text .compact v) := by
  rw [compact, write_eq, chars_cons, String.empty_append]
  exact congrArg String.ofList (List.append_nil _)

/-! ## Turns of the writer -/

/-- One turn takes one piece from the stack. -/
def turn : List Piece × String → List Piece × String
  | ([], written) => ([], written)
  | (.raw text :: stack, written) => (stack, written ++ String.ofList text)
  | (.value v :: stack, written) => (pieces v ++ stack, written)

/-- After at most so many turns as the stack weighs nothing is left on it. -/
theorem iterate_turn (stack : List Piece) (written : String) :
    ∃ k ≤ weight stack, turn^[k] (stack, written) = ([], write stack written) := by
  induction stack, written using write.induct with
  | case1 written => exact ⟨0, Nat.zero_le _, by rw [write]; rfl⟩
  | case2 text stack written ih =>
    obtain ⟨k, hk, hturns⟩ := ih
    refine ⟨k + 1, ?_, ?_⟩
    · rw [weight, Piece.weight]
      omega
    · rw [Function.iterate_succ_apply, turn, hturns, write]
  | case3 v stack written ih =>
    obtain ⟨k, hk, hturns⟩ := ih
    refine ⟨k + 1, ?_, ?_⟩
    · have hlt := weight_pieces_lt v
      rw [weight_append] at hk
      rw [weight, Piece.weight]
      omega
    · rw [Function.iterate_succ_apply, turn, hturns, write]

/-! ## The recursion -/

/-- A recursion that puts a separator before every part but the first. -/
theorem eq_intercalate {γ : Type} {separator : List Char} {part : γ → List Char}
    {join : Bool → List γ → List Char} (nil : ∀ first, join first [] = [])
    (cons : ∀ first x xs,
      join first (x :: xs) = (if first then [] else separator) ++ part x ++ join false xs)
    (xs : List γ) : join true xs = separator.intercalate (xs.map part) := by
  induction xs with
  | nil => exact nil true
  | cons x xs ih =>
    cases xs with
    | nil => simp [cons, nil]
    | cons y xs =>
      rw [List.map_cons] at ih
      rw [List.map_cons, List.map_cons, List.intercalate_cons_cons, ← ih]
      simp [cons]

theorem textItems_eq (style : Style) (items : List Value) :
    textItems style true items = style.comma.intercalate (items.map (text style)) :=
  eq_intercalate (fun _ => rfl) (fun _ _ _ => rfl) items

theorem textFields_eq (style : Style) (fields : List (String × Value)) :
    textFields style true fields =
      style.comma.intercalate (fields.map fun f =>
        text style (.str f.1) ++ style.colon ++ text style f.2) := by
  refine eq_intercalate (fun _ => rfl) (fun first f fields => ?_) fields
  obtain ⟨key, v⟩ := f
  simp [textFields, text, Style.scalar]

/-- A plain encoder: by recursion on the value, with one rule for all that has no parts. -/
structure Style.Encodes (style : Style) (encode : Value → List Char) : Prop where
  scalar : ∀ v, (∀ items, v ≠ .arr items) → (∀ fields, v ≠ .obj fields) →
    encode v = style.scalar v
  arr : ∀ items, encode (.arr items) = '[' :: style.comma.intercalate (items.map encode) ++ [']']
  obj : ∀ fields, encode (.obj fields) = leftBrace :: style.comma.intercalate
    (fields.map fun f => encode (.str f.1) ++ style.colon ++ encode f.2) ++ [rightBrace]

theorem encodes_text (style : Style) : style.Encodes (text style) where
  scalar := by
    intro v harr hobj
    cases v with
    | arr items => exact absurd rfl (harr items)
    | obj fields => exact absurd rfl (hobj fields)
    | _ => rfl
  arr := by
    intro items
    rw [text, textItems_eq]
  obj := by
    intro fields
    rw [text, textFields_eq]

namespace Style.Encodes

variable {style : Style} {encode : Value → List Char}

mutual

/-- The rules leave no choice. -/
theorem eq_text (h : style.Encodes encode) (v : Value) : encode v = text style v := by
  cases v with
  | arr items => rw [h.arr, map_items_eq h items, (encodes_text style).arr]
  | obj fields => rw [h.obj, map_fields_eq h fields, (encodes_text style).obj]
  | _ => exact h.scalar _ (by simp) (by simp)

theorem map_items_eq (h : style.Encodes encode) (items : List Value) :
    items.map encode = items.map (text style) := by
  cases items with
  | nil => rfl
  | cons v items => rw [List.map_cons, List.map_cons, eq_text h v, map_items_eq h items]

theorem map_fields_eq (h : style.Encodes encode) (fields : List (String × Value)) :
    (fields.map fun f => encode (.str f.1) ++ style.colon ++ encode f.2) =
      fields.map fun f => text style (.str f.1) ++ style.colon ++ text style f.2 := by
  cases fields with
  | nil => rfl
  | cons f fields =>
    obtain ⟨key, v⟩ := f
    have hkey : encode (.str key) = text style (.str key) := h.scalar _ (by simp) (by simp)
    rw [List.map_cons, List.map_cons, hkey, eq_text h v, map_fields_eq h fields]

end

end Style.Encodes

theorem write_str (s : String) (stack : List Piece) (written : String) :
    write (.value (.str s) :: stack) written =
      write stack (written ++ String.ofList ('"' :: s.toList.flatMap escape ++ ['"'])) := by
  have hpieces : pieces (.str s) = [.raw (Style.compact.string s)] := rfl
  rw [write, hpieces, List.singleton_append, write]
  rfl

/-- The writer ends, and it writes what a plain encoder gives, whichever one. A string of a value stands
between quotes with its characters escaped, wherever it is met and whatever it looks like. -/
theorem compact_encodes (v : Value) :
    (∃ k ≤ v.size, turn^[k] ([.value v], "") = ([], compact v)) ∧
      Style.compact.Encodes (text .compact) ∧
      (∀ encode, Style.compact.Encodes encode → compact v = String.ofList (encode v)) ∧
      ∀ s stack written, write (.value (.str s) :: stack) written =
        write stack (written ++ String.ofList ('"' :: s.toList.flatMap escape ++ ['"'])) := by
  refine ⟨?_, encodes_text .compact, ?_, write_str⟩
  · have h := iterate_turn [.value v] ""
    rwa [weight, weight, Piece.weight, Nat.add_zero] at h
  · intro encode h
    rw [compact_eq, h.eq_text]

end Json
end CodeIndex
