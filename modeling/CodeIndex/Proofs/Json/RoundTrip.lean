import CodeIndex.Proofs.Json.Compact
import CodeIndex.Proofs.Json.Reading

/-!
# CodeIndex.Proofs.Json.RoundTrip

A text that is written is one of the grammar, and reading it gives the value back.

* `Value.Exact`: the values that a text gives back: without doubles, and without a key twice in one
  object.
* `Style.Sound`: what the separators and escapes of a style must be, so that its texts are texts of the
  grammar. The compact style needs no white space.
* `denotes_text`: the text of a value denotes the value.
* `compact_decodes`: reading undoes the compact writing, and no two values have the same compact text.
-/

namespace CodeIndex

/-- Without doubles, and without a key twice in one object. Integers may have any number of digits, as in
`Json.intText`. -/
inductive Value.Exact : Value → Prop where
  | null : Exact .null
  | bool (b : Bool) : Exact (.bool b)
  | int (n : Int) : Exact (.int n)
  | str (s : String) : Exact (.str s)
  | arr {items : List Value} : (∀ v ∈ items, Exact v) → Exact (.arr items)
  | obj {fields : List (String × Value)} : (fields.map Prod.fst).Nodup →
      (∀ f ∈ fields, Exact f.2) → Exact (.obj fields)

namespace Table

variable {α : Type}

theorem insert_of_not_mem {table : Table α} {key : String} (h : key ∉ table.map Prod.fst) (a : α) :
    insert table key a = table ++ [(key, a)] := by
  induction table with
  | nil => rfl
  | cons p table ih =>
    obtain ⟨k, b⟩ := p
    rw [List.map_cons, List.mem_cons, not_or] at h
    rw [insert, if_neg (Ne.symm h.1), ih h.2]
    rfl

/-- A table without a key twice is the table of its pairs. -/
theorem ofPairs_of_nodup {pairs : List (String × α)} (h : (pairs.map Prod.fst).Nodup) :
    ofPairs pairs = pairs := by
  have go : ∀ (table pairs : List (String × α)), ((table ++ pairs).map Prod.fst).Nodup →
      pairs.foldl (fun table p => insert table p.1 p.2) table = table ++ pairs := by
    intro table pairs
    induction pairs generalizing table with
    | nil => simp
    | cons p pairs ih =>
      intro h
      have hp : p.1 ∉ table.map Prod.fst := by
        rw [List.map_append, List.map_cons, List.nodup_append] at h
        exact fun hm => h.2.2 p.1 hm p.1 List.mem_cons_self rfl
      rw [List.foldl_cons, insert_of_not_mem hp, ih]
      · simp
      · simpa using h
  exact go [] pairs h

end Table

namespace Json

open Grammar

/-! ## Numbers -/

theorem digitsValue_decimalDigits (n : Nat) :
    Decimal.digitsValue (Decimal.decimalDigits n) = n := by
  have hv : ∀ t : List Char, Decimal.digitsValue t = Nat.ofDigitChars 10 t 0 := by
    intro t
    simp only [Decimal.digitsValue, Nat.ofDigitChars_eq_foldl, Nat.mul_comm]
    rfl
  rw [hv, Decimal.decimalDigits, Nat.toString_eq_ofList_toDigits, String.toList_ofList,
    Nat.ofDigitChars_ten_toDigits]

theorem head_toDigits {n : Nat} (h : 0 < n) :
    ∃ c ds, Nat.toDigits 10 n = c :: ds ∧ c ≠ '0' := by
  induction n using Nat.strong_induction_on with
  | _ n ih =>
    rw [Nat.toDigits_eq_if (by decide)]
    split
    · rename_i hn
      refine ⟨n.digitChar, [], rfl, ?_⟩
      interval_cases n <;> decide
    · rename_i hn
      obtain ⟨c, ds, hd, hc⟩ := ih (n / 10) (by omega) (by omega)
      exact ⟨c, _, by rw [hd, List.cons_append], hc⟩

theorem isDigit_decimalDigits (n : Nat) : ∀ d ∈ Decimal.decimalDigits n, d.isDigit := by
  rw [Decimal.decimalDigits, Nat.toString_eq_ofList_toDigits, String.toList_ofList]
  exact fun d hd => Nat.isDigit_of_mem_toDigits (by decide) (by decide) hd

theorem whole_decimalDigits (n : Nat) : Whole (Decimal.decimalDigits n) := by
  have hall := isDigit_decimalDigits n
  rw [Decimal.decimalDigits, Nat.toString_eq_ofList_toDigits, String.toList_ofList] at hall ⊢
  rcases Nat.eq_zero_or_pos n with rfl | hn
  · exact .zero
  · obtain ⟨c, ds, hd, hc⟩ := head_toDigits hn
    rw [hd] at hall ⊢
    exact .digits hc ⟨by simp, hall⟩

theorem number_intText (n : Int) : Number (intText n) (.int n) := by
  have hw := whole_decimalDigits n.natAbs
  have hv := digitsValue_decimalDigits n.natAbs
  unfold intText
  split
  · have h := Number.int true hw
    rw [hv] at h
    have hn : -(n.natAbs : Int) = n := by omega
    rw [if_pos rfl, hn] at h
    exact h
  · have h := Number.int false hw
    rw [hv] at h
    have hn : (n.natAbs : Int) = n := by omega
    rw [if_neg Bool.false_ne_true, hn] at h
    exact h

/-! ## Strings -/

theorem hexDigit_hexDigit {n : Nat} (h : n < 16) : HexDigit (Quoted.hexDigit n) n := by
  left
  interval_cases n <;> rfl

theorem codeUnit_hexDigits {n : Nat} (h : n < 0x10000) : CodeUnit (Quoted.hexDigits 4 n) n := by
  have hn : n / 16 / 16 / 16 % 16 * 0x1000 + n / 16 / 16 % 16 * 0x100 + n / 16 % 16 * 0x10 + n % 16 =
      n := by omega
  have hd : ∀ m, HexDigit (Quoted.hexDigit (m % 16)) (m % 16) := fun m =>
    hexDigit_hexDigit (Nat.mod_lt _ (by decide))
  have hc := CodeUnit.digits (hd (n / 16 / 16 / 16)) (hd (n / 16 / 16)) (hd (n / 16)) (hd n)
  rw [hn] at hc
  exact hc

theorem escapes_of_shortEscape? {c letter : Char} (h : shortEscape? c = some letter) :
    (letter, c) ∈ escapes := by
  unfold shortEscape? at h
  split_ifs at h <;> cases h <;> subst_vars <;> decide

theorem plain_of_shortEscape? {c : Char} (h : shortEscape? c = none) : c ≠ '"' ∧ c ≠ '\\' := by
  constructor <;> (rintro rfl; cases h)

theorem character_escape (c : Char) : Character (escape c) c := by
  unfold escape
  split
  · rename_i h
    exact .escape (escapes_of_shortEscape? h)
  · rename_i h
    obtain ⟨hq, hb⟩ := plain_of_shortEscape? h
    split
    · rename_i hlow
      have hc := Character.unit (codeUnit_hexDigits (by omega : c.toNat < 0x10000))
        (by unfold IsHigh; omega) (by unfold IsLow; omega)
      rwa [Char.ofNat_toNat] at hc
    · rename_i hlow
      exact .plain (by omega) hq hb

/-! ## Values -/

structure Style.Sound (style : Style) (blanks : List Char) : Prop where
  comma : ∃ b, style.comma = ',' :: b ∧ b ⊆ blanks
  colon : ∃ b, style.colon = ':' :: b ∧ b ⊆ blanks
  escape : ∀ c, Character (style.escape c) c

theorem sound_compact (blanks : List Char) : Style.compact.Sound blanks where
  comma := ⟨[], rfl, List.nil_subset _⟩
  colon := ⟨[], rfl, List.nil_subset _⟩
  escape := character_escape

section

variable {style : Style} {blanks : List Char} (sound : style.Sound blanks)

include sound

theorem characters_flatMap (s : List Char) : Characters (s.flatMap style.escape) s := by
  induction s with
  | nil => exact .nil
  | cons c s ih => exact .cons (sound.escape c) ih

theorem items_text {v : Value} {items : List Value} {b : List Char} (hb : b ⊆ blanks)
    (h : ∀ w ∈ v :: items, Denotes blanks (text style w) w) :
    Items blanks (b ++ text style v ++ textItems style false items) (v :: items) := by
  have hnil : [] ⊆ blanks := List.nil_subset _
  induction items generalizing v b with
  | nil => exact .last hb (h v List.mem_cons_self) hnil
  | cons w items ih =>
    obtain ⟨bc, hc, hbc⟩ := sound.comma
    have hrest := ih hbc fun w hm => h w (List.mem_cons_of_mem v hm)
    have := Items.more hb (h v List.mem_cons_self) hnil hrest
    simpa [textItems, hc] using this

theorem fields_text {key : String} {v : Value} {fields : List (String × Value)} {b : List Char}
    (hb : b ⊆ blanks) (h : ∀ f ∈ (key, v) :: fields, Denotes blanks (text style f.2) f.2) :
    Fields blanks
      (b ++ style.string key ++ style.colon ++ text style v ++ textFields style false fields)
      ((key, v) :: fields) := by
  have hnil : [] ⊆ blanks := List.nil_subset _
  obtain ⟨bl, hl, hbl⟩ := sound.colon
  induction fields generalizing key v b with
  | nil =>
    have := Fields.last hb (characters_flatMap sound key.toList) hnil hbl
      (h _ List.mem_cons_self) hnil
    simpa [textFields, Style.string, quote, quoted, hl] using this
  | cons f fields ih =>
    obtain ⟨key', w⟩ := f
    obtain ⟨bc, hc, hbc⟩ := sound.comma
    have hf : ∀ f ∈ (key', w) :: fields, Denotes blanks (text style f.2) f.2 := fun f hm =>
      h f (List.mem_cons_of_mem _ hm)
    have hrest := ih hbc hf
    have := Fields.more hb (characters_flatMap sound key.toList) hnil hbl
      (h _ List.mem_cons_self) hnil hrest
    simpa [textFields, Style.string, quote, quoted, hl, hc] using this

theorem denotes_text {v : Value} (h : v.Exact) : Denotes blanks (text style v) v := by
  have hnil : [] ⊆ blanks := List.nil_subset _
  induction h with
  | null => exact .null
  | bool b => cases b <;> constructor
  | int n => exact .number (number_intText n)
  | str s =>
    have hs : Denotes blanks _ (.str (String.ofList s.toList)) :=
      .string (characters_flatMap sound s.toList)
    rwa [String.ofList_toList] at hs
  | @arr items _ ih =>
    cases items with
    | nil => exact .emptyArray hnil
    | cons v items => exact .array (items_text sound hnil ih)
  | @obj fields hn _ ih =>
    cases fields with
    | nil => exact .emptyObject hnil
    | cons f fields =>
      obtain ⟨key, v⟩ := f
      have := Denotes.object (fields_text sound hnil ih)
      rwa [Table.ofPairs_of_nodup hn] at this

theorem text_of_sound {v : Value} (h : v.Exact) : Grammar.Text blanks (text style v) v := by
  have hnil : [] ⊆ blanks := List.nil_subset _
  simpa using Grammar.Text.mk hnil (denotes_text sound h) hnil

end

theorem text_compact {v : Value} (h : v.Exact) (blanks : List Char) :
    Grammar.Text blanks (compact v).toList v := by
  rw [compact_eq, String.toList_ofList]
  exact text_of_sound (sound_compact blanks) h

theorem read?_compact {v : Value} (h : v.Exact) : read? (compact v) = some v := by
  have := read?_of_text (text_compact h spaces)
  rwa [String.ofList_toList] at this

/-- The compact text of a value is a text of the grammar, with no white space between its tokens or
around them. Reading it gives the value back, the fields of objects in their order, and no other value
is denoted by it. So two values have different compact texts. -/
theorem compact_decodes {v : Value} (h : v.Exact) :
    Grammar.Text [] (compact v).toList v ∧ Grammar.Text spaces (compact v).toList v ∧
      read? (compact v) = some v ∧
      (∀ w, Grammar.Text spaces (compact v).toList w → w = v) ∧
      ∀ w : Value, w.Exact → compact w = compact v → w = v := by
  refine ⟨text_compact h [], text_compact h spaces, read?_compact h, ?_, ?_⟩
  · intro w hw
    exact hw.unique (text_compact h spaces)
  · intro w hw he
    have hr := read?_compact hw
    rw [he, read?_compact h] at hr
    exact (Option.some.inj hr).symm

theorem compact_decodes_nested :
    let v : Value := .obj [
      ("list\n", .arr [.null, .bool true, .int (-120), .str "\"é\\\x01", .arr []]), ("", .obj [])]
    v.Exact ∧ read? (compact v) = some v := by
  intro v
  have hitems : (Value.arr [.null, .bool true, .int (-120), .str "\"é\\\x01", .arr []]).Exact := by
    refine .arr ?_
    simp only [List.forall_mem_cons, List.not_mem_nil, false_implies, implies_true, and_true]
    exact ⟨.null, .bool true, .int _, .str _, .arr (by simp)⟩
  have h : v.Exact := by
    refine .obj (by decide) ?_
    simp only [List.forall_mem_cons, List.not_mem_nil, false_implies, implies_true, and_true]
    exact ⟨hitems, .obj (by decide) (by simp)⟩
  exact ⟨h, (compact_decodes h).2.2.1⟩

end Json
end CodeIndex
