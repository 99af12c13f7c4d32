import CodeIndex.Proofs.Json.RoundTrip
import CodeIndex.Proofs.Text.Utf8

/-!
# CodeIndex.Proofs.Json.Ascii

The texts that are written in printable ASCII.

* `character_escapeAscii`: an escape stands for its character, and so does a surrogate pair. So the style is
  sound for the grammar: `sound_ascii`.
* `printable_text`: from blank to tilde, and nothing else.
* `read?_asciiText`, `value?_asciiText`: the text is read back, also with something behind it.
-/

namespace CodeIndex
namespace Json

open Json.Grammar

/-! ## Characters -/

/-- The halves of a character beyond the basic plane, and how they are put together again. -/
theorem surrogates {n : Nat} (low : 0x10000 ≤ n) (high : n ≤ 0x10FFFF) :
    IsHigh (highSurrogate n) ∧ IsLow (lowSurrogate n) ∧
      0x10000 + (highSurrogate n - 0xD800) * 0x400 + (lowSurrogate n - 0xDC00) = n := by
  unfold IsHigh IsLow highSurrogate lowSurrogate
  omega

theorem character_escapeAscii (c : Char) : Character (escapeAscii c) c := by
  obtain ⟨last, notSurrogate⟩ := Utf8.toNat_le c
  unfold escapeAscii
  split
  · rename_i h
    exact .escape (escapes_of_shortEscape? h)
  · rename_i h
    obtain ⟨hq, hb⟩ := plain_of_shortEscape? h
    dsimp only
    split
    · rename_i hplain
      exact .plain hplain.1 hq hb
    · split
      · rename_i hbasic
        have hc := Character.unit (codeUnit_hexDigits hbasic) (by unfold IsHigh; omega)
          (by unfold IsLow; omega)
        rwa [Char.ofNat_toNat] at hc
      · rename_i hbeyond
        obtain ⟨high, low, joined⟩ := surrogates (by omega) last
        have hc := Character.pair (codeUnit_hexDigits (by unfold IsHigh at high; omega)) high
          (codeUnit_hexDigits (by unfold IsLow at low; omega)) low
        rwa [joined, Char.ofNat_toNat] at hc

theorem sound_ascii : Style.ascii.Sound spaces where
  comma := ⟨[' '], rfl, by decide⟩
  colon := ⟨[' '], rfl, by decide⟩
  escape := character_escapeAscii

/-! ## Printable texts -/

/-- From blank to tilde. -/
def Printable (text : List Char) : Prop := ∀ c ∈ text, ' ' ≤ c ∧ c ≤ '~'

instance (text : List Char) : Decidable (Printable text) :=
  List.decidableBAll (fun c => ' ' ≤ c ∧ c ≤ '~') text

theorem printable_append {text more : List Char} :
    Printable (text ++ more) ↔ Printable text ∧ Printable more :=
  List.forall_mem_append

theorem printable_cons {c : Char} {text : List Char} :
    Printable (c :: text) ↔ (' ' ≤ c ∧ c ≤ '~') ∧ Printable text :=
  List.forall_mem_cons

theorem printable_hexDigits (width n : Nat) : Printable (Quoted.hexDigits width n) := by
  have digit : ∀ m < 16, Printable [Quoted.hexDigit m] := by decide
  induction width generalizing n with
  | zero => exact List.forall_mem_nil _
  | succ width ih => exact printable_append.mpr ⟨ih _, digit _ (Nat.mod_lt _ (by decide))⟩

theorem printable_unicodeEscape (n : Nat) : Printable (unicodeEscape n) := by
  refine printable_cons.mpr ⟨by decide, printable_cons.mpr ⟨by decide, printable_hexDigits 4 n⟩⟩

theorem printable_letter {c letter : Char} (h : shortEscape? c = some letter) : Printable ['\\', letter] := by
  unfold shortEscape? at h
  split_ifs at h <;> cases h <;> decide

theorem printable_escapeAscii (c : Char) : Printable (escapeAscii c) := by
  unfold escapeAscii
  split
  · rename_i h
    exact printable_letter h
  · dsimp only
    split
    · rename_i hplain
      refine printable_cons.mpr ⟨⟨hplain.1, ?_⟩, by decide⟩
      exact Nat.le_of_lt_succ hplain.2
    · split
      · exact printable_unicodeEscape _
      · exact printable_append.mpr ⟨printable_unicodeEscape _, printable_unicodeEscape _⟩

theorem printable_string (s : String) : Printable (Style.ascii.string s) := by
  have inside : Printable (s.toList.flatMap escapeAscii) := by
    intro c hc
    obtain ⟨d, -, hd⟩ := List.mem_flatMap.mp hc
    exact printable_escapeAscii d c hd
  exact printable_append.mpr ⟨printable_cons.mpr ⟨by decide, inside⟩, by decide⟩

theorem printable_decimalDigits (n : Nat) : Printable (Decimal.decimalDigits n) := by
  intro c hc
  have digit := isDigit_decimalDigits n c hc
  rw [Char.isDigit, Bool.and_eq_true, decide_eq_true_eq, decide_eq_true_eq] at digit
  have low : 0x30 ≤ c.toNat := digit.1
  have high : c.toNat ≤ 0x39 := digit.2
  have blank : 0x20 ≤ c.toNat := by omega
  have tilde : c.toNat ≤ 0x7E := by omega
  exact ⟨blank, tilde⟩

theorem printable_intText (n : Int) : Printable (intText n) := by
  unfold intText
  split
  · exact printable_cons.mpr ⟨by decide, printable_decimalDigits _⟩
  · exact printable_decimalDigits _

theorem printable_items {items : List Value} (h : ∀ v ∈ items, Printable (text .ascii v)) (first : Bool) :
    Printable (textItems .ascii first items) := by
  induction items generalizing first with
  | nil => exact List.forall_mem_nil _
  | cons v items ih =>
    rw [List.forall_mem_cons] at h
    have comma : Printable (if first then [] else Style.ascii.comma) := by
      cases first <;> decide
    exact printable_append.mpr ⟨printable_append.mpr ⟨comma, h.1⟩, ih h.2 false⟩

theorem printable_fields {fields : List (String × Value)} (h : ∀ f ∈ fields, Printable (text .ascii f.2))
    (first : Bool) : Printable (textFields .ascii first fields) := by
  induction fields generalizing first with
  | nil => exact List.forall_mem_nil _
  | cons f fields ih =>
    obtain ⟨key, v⟩ := f
    rw [List.forall_mem_cons] at h
    have comma : Printable (if first then [] else Style.ascii.comma) := by
      cases first <;> decide
    have colon : Printable Style.ascii.colon := by decide
    rw [textFields]
    simp only [printable_append]
    exact ⟨⟨⟨⟨comma, printable_string key⟩, colon⟩, h.1⟩, ih h.2 false⟩

theorem printable_text {v : Value} (h : v.Exact) : Printable (text .ascii v) := by
  induction h with
  | null => decide
  | bool b => cases b <;> decide
  | int n => exact printable_intText n
  | str s => exact printable_string s
  | arr _ ih =>
    rw [text, printable_append, printable_cons]
    exact ⟨⟨by decide, printable_items ih true⟩, by decide⟩
  | obj _ _ ih =>
    rw [text, printable_append, printable_cons]
    exact ⟨⟨by decide, printable_fields ih true⟩, by decide⟩

/-! ## Reading -/

theorem text_asciiText {v : Value} (h : v.Exact) : Grammar.Text spaces (asciiText v).toList v := by
  rw [asciiText, String.toList_ofList]
  exact text_of_sound sound_ascii h

theorem read?_asciiText {v : Value} (h : v.Exact) : read? (asciiText v) = some v :=
  read?_of_text (text_of_sound sound_ascii h)

theorem value?_asciiText {v : Value} (h : v.Exact) {rest : List Char} (ends : Ends rest) :
    value? (asciiText v).length ((asciiText v).toList ++ rest) = some (v, rest) := by
  refine (reads _).1 ?_ (Nat.le_of_eq String.length_toList) ends
  rw [asciiText, String.toList_ofList]
  exact denotes_text sound_ascii h

end Json
end CodeIndex
