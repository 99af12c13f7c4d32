import CodeIndex.Json.Reader
import CodeIndex.Proofs.Json.Grammar
import Mathlib.Tactic.IntervalCases

/-!
# CodeIndex.Proofs.Json.Reading

The reader takes every text of the grammar, and gives the value that the text denotes.

* `string?_append`, `number?_append`: one literal, whatever text is behind it. A numeral must not be
  continued by that text.
* `value?_append`: one value, with as much fuel as it has characters.
* `read?_of_text`: a whole text. So the grammar gives one value to a text at most.
-/

namespace CodeIndex
namespace Json

open Grammar

/-! ## White space -/

theorem isSpace_iff {c : Char} : isSpace c = true ↔ c ∈ spaces := by
  simp [isSpace, spaces, or_assoc]

theorem skipSpace_append {b : List Char} (hb : b ⊆ spaces) (text : List Char) :
    skipSpace (b ++ text) = skipSpace text :=
  List.dropWhile_append_of_pos fun _ hc => isSpace_iff.mpr (hb hc)

theorem skipSpace_blank {b : List Char} (hb : b ⊆ spaces) : skipSpace b = [] := by
  rw [← List.append_nil b, skipSpace_append hb]
  rfl

theorem skipSpace_cons {c : Char} (hc : isSpace c = false) (text : List Char) :
    skipSpace (c :: text) = c :: text := by
  simp [skipSpace, hc]

theorem skipSpace_append_cons {b : List Char} (hb : b ⊆ spaces) {c : Char}
    (hc : isSpace c = false) (text : List Char) : skipSpace (b ++ c :: text) = c :: text := by
  rw [skipSpace_append hb, skipSpace_cons hc]

theorem skipSpace_skipSpace (text : List Char) : skipSpace (skipSpace text) = skipSpace text := by
  induction text with
  | nil => rfl
  | cons c text ih =>
    cases hc : isSpace c with
    | true =>
      have hd : skipSpace (c :: text) = skipSpace text := by simp [skipSpace, hc]
      rw [hd, ih]
    | false => rw [skipSpace_cons hc, skipSpace_cons hc]

/-! ## Strings -/

theorem hexValue?_of_hexDigit {c : Char} {n : Nat} (h : HexDigit c n) : hexValue? c = some n := by
  have hn : n < 16 := by
    rcases h with h | h <;> exact (List.getElem?_eq_some_iff.mp h).1
  rcases h with h | h <;> interval_cases n <;> cases h <;> rfl

theorem codeUnit?_append {t : List Char} {n : Nat} (h : CodeUnit t n) (rest : List Char) :
    codeUnit? (t ++ rest) = some (n, rest) := by
  cases h with
  | digits ha hb hc hd =>
    simp [codeUnit?, hexValue?_of_hexDigit ha, hexValue?_of_hexDigit hb, hexValue?_of_hexDigit hc,
      hexValue?_of_hexDigit hd]

theorem letter?_of_mem {letter c : Char} (h : (letter, c) ∈ escapes) :
    letter? letter = some c ∧ letter ≠ 'u' := by
  have all : ∀ p ∈ escapes, letter? p.1 = some p.2 ∧ p.1 ≠ 'u' := by decide
  exact all _ h

theorem isHighSurrogate_iff {n : Nat} : isHighSurrogate n = true ↔ IsHigh n := by
  simp [isHighSurrogate, IsHigh]

theorem isLowSurrogate_iff {n : Nat} : isLowSurrogate n = true ↔ IsLow n := by
  simp [isLowSurrogate, IsLow]

theorem string?_unescape {text rest : List Char} {c : Char}
    (h : unescape? text = some (c, rest)) :
    string? ('\\' :: text) = (string? rest).map fun s => (c :: s.1, s.2) := by
  rw [string?, if_neg (by decide), if_pos rfl]
  split
  · rename_i h'
    rw [h] at h'
    cases h'
    rfl
  · rename_i h'
    rw [h] at h'
    cases h'

theorem string?_character {t : List Char} {c : Char} (h : Character t c) (rest : List Char) :
    string? (t ++ rest) = (string? rest).map fun s => (c :: s.1, s.2) := by
  cases h with
  | plain low quote backslash =>
    rw [List.singleton_append, string?, if_neg quote, if_neg backslash, if_neg (Nat.not_lt.mpr low)]
  | @escape letter _ h =>
    obtain ⟨hl, hu⟩ := letter?_of_mem h
    have he : unescape? (letter :: rest) = some (c, rest) := by
      unfold unescape?
      split
      · rename_i heq
        cases heq
        exact absurd rfl hu
      · rename_i heq
        cases heq
        rw [hl]
        rfl
      · rename_i heq
        cases heq
    exact string?_unescape he
  | @unit t n h high low =>
    have he : unescape? ('u' :: (t ++ rest)) = some (Char.ofNat n, rest) := by
      simp only [unescape?, codeUnit?_append h, isHighSurrogate_iff, isLowSurrogate_iff, high, low,
        if_false]
    exact string?_unescape he
  | @pair t u high low h hh h' hl =>
    have hhalf : lowHalf? high ('\\' :: 'u' :: (u ++ rest)) =
        some (Char.ofNat (joinSurrogates high low), rest) := by
      simp only [lowHalf?, codeUnit?_append h', isLowSurrogate_iff, hl, if_true]
    have he : unescape? ('u' :: (t ++ '\\' :: 'u' :: (u ++ rest))) =
        some (Char.ofNat (joinSurrogates high low), rest) := by
      simp only [unescape?, codeUnit?_append h, isHighSurrogate_iff, hh, if_true, hhalf]
    rw [List.append_assoc]
    exact string?_unescape he

theorem string?_append {t s : List Char} (h : Characters t s) (rest : List Char) :
    string? (t ++ '"' :: rest) = some (s, rest) := by
  induction h with
  | nil => rw [List.nil_append, string?, if_pos rfl]
  | cons hc _ ih => rw [List.append_assoc, string?_character hc, ih]; rfl

/-! ## Numbers -/

/-- No numeral goes on with this text. -/
def Ends (rest : List Char) : Prop :=
  ∀ c ∈ rest.head?, c.isDigit = false ∧ c ≠ '.' ∧ c ≠ 'e' ∧ c ≠ 'E'

theorem ends_nil : Ends [] := by
  intro c hc
  cases hc

theorem ends_cons {c : Char} {rest : List Char} (h : c ∈ spaces ∨ c ∈ [',', ']', '\x7d']) :
    Ends (c :: rest) := by
  have all : (spaces ++ [',', ']', '\x7d']).all fun c =>
      c.isDigit = false ∧ c ≠ '.' ∧ c ≠ 'e' ∧ c ≠ 'E' := by decide
  intro c' hc
  cases hc
  exact of_decide_eq_true (List.all_eq_true.mp all c (List.mem_append.mpr h))

theorem ends_append {b rest : List Char} (hb : b ⊆ spaces) (h : Ends rest) : Ends (b ++ rest) := by
  cases b with
  | nil => exact h
  | cons c b => exact ends_cons (.inl (hb List.mem_cons_self))

theorem splitDigits_append {ds rest : List Char} (hd : ∀ d ∈ ds, d.isDigit)
    (hr : ∀ c ∈ rest.head?, c.isDigit = false) : Decimal.splitDigits (ds ++ rest) = (ds, rest) := by
  have hstop : Decimal.splitDigits rest = ([], rest) := by
    cases rest with
    | nil => rfl
    | cons c rest =>
      have hc := hr c rfl
      simp [Decimal.splitDigits, hc]
  obtain ⟨htake, hdrop⟩ := Prod.mk.inj hstop
  rw [Decimal.splitDigits, List.takeWhile_append_of_pos hd, List.dropWhile_append_of_pos hd, htake,
    hdrop, List.append_nil]

theorem Grammar.Whole.digits_mem {ds : List Char} (h : Whole ds) : ∀ d ∈ ds, d.isDigit := by
  cases h with
  | zero => simp
  | digits _ h => exact h.2

theorem isWhole_of_whole {ds : List Char} (h : Whole ds) : isWhole ds = true := by
  cases h with
  | zero => rfl
  | @digits c ds hc _ => cases ds <;> simp [isWhole, hc]

/-- A whole part begins with a digit. -/
theorem Grammar.Whole.head {ds : List Char} (h : Whole ds) : ∃ d rest, ds = d :: rest ∧ d.isDigit := by
  cases h with
  | zero => exact ⟨'0', [], rfl, rfl⟩
  | digits _ h => exact ⟨_, _, rfl, h.2 _ List.mem_cons_self⟩

theorem digit_ne {c d : Char} (hc : c.isDigit) (hd : d.isDigit = false) : c ≠ d := by
  rintro rfl
  rw [hc] at hd
  cases hd

theorem unsigned_append (negative : Bool) {ds : List Char} (h : Whole ds) (rest : List Char) :
    unsigned (sign negative ++ (ds ++ rest)) = (negative, ds ++ rest) := by
  cases negative with
  | true => rfl
  | false =>
    obtain ⟨d, ds, rfl, hd⟩ := h.head
    have hne : d ≠ '-' := digit_ne hd rfl
    simp only [sign, unsigned]
    split
    · rename_i heq
      cases heq
      exact absurd rfl hne
    · rfl

theorem fraction?_append {f ds : List Char} (h : Fraction f ds) {rest : List Char}
    (hr : ∀ c ∈ rest.head?, c.isDigit = false ∧ c ≠ '.') :
    fraction? (f ++ rest) = some (ds, rest) := by
  cases h with
  | none =>
    rw [List.nil_append]
    unfold fraction?
    split
    · exact absurd rfl (hr '.' rfl).2
    · rfl
  | some h =>
    have hs := splitDigits_append h.2 fun c hc => (hr c hc).1
    simp [fraction?, hs, h.1]

theorem exponentPart?_append {e : List Char} {power : Option Int} (h : Exponent e power)
    {rest : List Char} (hr : Ends rest) : exponentPart? (e ++ rest) = some (power, rest) := by
  cases h with
  | none =>
    rw [List.nil_append]
    cases rest with
    | nil => rfl
    | cons c rest =>
      obtain ⟨-, -, he, hE⟩ := hr c rfl
      simp [exponentPart?, he, hE]
  | @unsigned e ds he h =>
    have hs := splitDigits_append h.2 fun c hc => (hr c hc).1
    obtain ⟨d, ds, rfl⟩ := List.exists_cons_of_ne_nil h.1
    have hd := h.2 d List.mem_cons_self
    have hsign : Decimal.splitSign (d :: ds ++ rest) = (false, d :: ds ++ rest) := by
      have hm : d ≠ '-' := digit_ne hd rfl
      have hp : d ≠ '+' := digit_ne hd rfl
      unfold Decimal.splitSign
      split
      · rename_i heq
        cases heq
        exact absurd rfl hm
      · rename_i heq
        cases heq
        exact absurd rfl hp
      · rfl
    rw [List.cons_append, exponentPart?, if_pos he, hsign]
    dsimp only
    rw [hs]
    rfl
  | plus he h =>
    have hs := splitDigits_append h.2 fun c hc => (hr c hc).1
    simp [exponentPart?, he, Decimal.splitSign, hs, h.1]
  | minus he h =>
    have hs := splitDigits_append h.2 fun c hc => (hr c hc).1
    simp [exponentPart?, he, Decimal.splitSign, hs, h.1]

theorem Grammar.Exponent.head {e : List Char} {power : Option Int} (h : Exponent e power)
    {rest : List Char} (hr : Ends rest) :
    ∀ c ∈ (e ++ rest).head?, c.isDigit = false ∧ c ≠ '.' := by
  have hmark : ∀ {m : Char}, m = 'e' ∨ m = 'E' → m.isDigit = false ∧ m ≠ '.' := by
    rintro m (rfl | rfl) <;> decide
  intro c hc
  cases h with
  | none => exact ⟨(hr c hc).1, (hr c hc).2.1⟩
  | unsigned hm _ | plus hm _ | minus hm _ =>
    cases hc
    exact hmark hm

theorem Grammar.Fraction.head {f fs : List Char} (h : Fraction f fs) {rest : List Char}
    (hr : ∀ c ∈ rest.head?, c.isDigit = false ∧ c ≠ '.') :
    ∀ c ∈ (f ++ rest).head?, c.isDigit = false := by
  intro c hc
  cases h with
  | none => exact (hr c hc).1
  | some _ =>
    cases hc
    rfl

/-- The value of a numeral with these parts. -/
def numeralValue (negative : Bool) (ds fs : List Char) (power : Option Int) : Value :=
  match fs, power with
  | [], none => .int (if negative then -(Decimal.digitsValue ds : Int) else Decimal.digitsValue ds)
  | _, _ =>
    .float (Decimal.toFloat ⟨negative, Decimal.digitsValue (ds ++ fs), power.getD 0 - fs.length⟩)

theorem number?_parts (negative : Bool) {ds f fs e rest : List Char} {power : Option Int}
    (h : Whole ds) (hf : Fraction f fs) (he : Exponent e power) (hr : Ends rest) :
    number? (sign negative ++ (ds ++ (f ++ (e ++ rest)))) =
      some (numeralValue negative ds fs power, rest) := by
  have hsign := unsigned_append negative h (f ++ (e ++ rest))
  have hwhole := splitDigits_append h.digits_mem (hf.head (he.head hr))
  have hfraction := fraction?_append hf (he.head hr)
  have hexponent := exponentPart?_append he hr
  unfold number? numeralValue
  simp only [hsign, hwhole, isWhole_of_whole h, hfraction, hexponent, if_true, Option.bind_eq_bind,
    Option.bind_some]
  cases fs <;> cases power <;> rfl

theorem number?_append {t : List Char} {v : Value} (h : Number t v) {rest : List Char}
    (hr : Ends rest) : number? (t ++ rest) = some (v, rest) := by
  cases h with
  | @int negative ds h =>
    have := number?_parts negative h .none .none hr
    rwa [List.append_assoc]
  | @float negative ds f fs e power h hf he hne =>
    have hv : numeralValue negative ds fs power = .float (Decimal.toFloat
        ⟨negative, Decimal.digitsValue (ds ++ fs), power.getD 0 - fs.length⟩) := by
      unfold numeralValue
      split
      · cases he
        cases hf with
        | none => exact absurd rfl hne
        | some h => exact absurd rfl h.1
      · rfl
    simp only [List.append_assoc]
    rw [number?_parts negative h hf he hr, hv]

/-! ## Values -/

theorem Grammar.Number.head {t : List Char} {v : Value} (h : Number t v) :
    ∃ c rest, t = c :: rest ∧ (c = '-' ∨ c.isDigit) := by
  have whole : ∀ (negative : Bool) {ds : List Char}, Whole ds → ∀ more,
      ∃ c rest, sign negative ++ (ds ++ more) = c :: rest ∧ (c = '-' ∨ c.isDigit) := by
    intro negative ds h more
    obtain ⟨d, ds, rfl, hd⟩ := h.head
    cases negative with
    | true => exact ⟨'-', _, rfl, .inl rfl⟩
    | false => exact ⟨d, _, rfl, .inr hd⟩
  cases h with
  | int negative h => simpa using whole negative h []
  | @float negative _ f _ e _ h _ _ _ => simpa using whole negative h (f ++ e)

/-- The first character of a value. -/
theorem Grammar.Denotes.head {blanks t : List Char} {v : Value} (h : Denotes blanks t v) :
    ∃ c rest, t = c :: rest ∧ isSpace c = false ∧ c ≠ ']' := by
  cases h with
  | number h =>
    obtain ⟨c, rest, rfl, hc⟩ := h.head
    have hs : isSpace c = false ∧ c ≠ ']' := by
      rcases hc with rfl | hc
      · decide
      · have hne : ∀ d, d.isDigit = false → c ≠ d := fun d hd => digit_ne hc hd
        exact ⟨by simp [isSpace, hne], hne ']' rfl⟩
    exact ⟨c, rest, rfl, hs⟩
  | null | boolTrue | boolFalse | string _ | emptyArray _ | array _ | emptyObject _ | object _ =>
    exact ⟨_, _, rfl, rfl, by decide⟩

theorem value?_skipSpace (fuel : Nat) (text : List Char) :
    value? fuel (skipSpace text) = value? fuel text := by
  cases fuel with
  | zero => simp only [value?]
  | succ fuel => simp only [value?, skipSpace_skipSpace]

theorem value?_blank {b : List Char} (hb : b ⊆ spaces) (fuel : Nat) (text : List Char) :
    value? fuel (b ++ text) = value? fuel text := by
  rw [← value?_skipSpace, skipSpace_append hb, value?_skipSpace]

theorem items?_skipSpace (fuel : Nat) (text : List Char) :
    items? fuel (skipSpace text) = items? fuel text := by
  cases fuel with
  | zero => simp only [items?]
  | succ fuel => simp only [items?, value?_skipSpace]

theorem fields?_skipSpace (fuel : Nat) (text : List Char) :
    fields? fuel (skipSpace text) = fields? fuel text := by
  cases fuel with
  | zero => simp only [fields?]
  | succ fuel => simp only [fields?, skipSpace_skipSpace]

theorem value?_number {t : List Char} {v : Value} (h : Number t v) {rest : List Char}
    (hr : Ends rest) (fuel : Nat) : value? (fuel + 1) (t ++ rest) = some (v, rest) := by
  obtain ⟨c, t', ht, hc⟩ := h.head
  have hn := number?_append h hr
  have hs : isSpace c = false := by
    have hd : Denotes [] t v := .number h
    obtain ⟨c', _, ht', hs, -⟩ := hd.head
    rw [ht] at ht'
    cases ht'
    exact hs
  have ne : ∀ {d : Char}, d ≠ '-' → d.isDigit = false → c ≠ d := by
    intro d hm hd he
    subst he
    rcases hc with hc | hc
    · exact hm hc
    · rw [hd] at hc
      cases hc
  rw [ht] at hn ⊢
  rw [List.cons_append] at hn ⊢
  unfold value?
  rw [skipSpace_cons hs]
  split
  iterate 6
    · rename_i heq
      exact absurd (List.cons.inj heq).1 (ne (by decide) rfl)
  · exact hn

theorem Grammar.Items.head {blanks t : List Char} {items : List Value}
    (h : Items blanks t items) :
    ∃ b c rest, t = b ++ c :: rest ∧ b ⊆ blanks ∧ isSpace c = false ∧ c ≠ ']' := by
  cases h with
  | last hb h _ =>
    obtain ⟨c, rest, rfl, hs, hc⟩ := h.head
    exact ⟨_, c, _, by rw [List.append_assoc, List.cons_append], hb, hs, hc⟩
  | more hb h _ _ =>
    obtain ⟨c, rest, rfl, hs, hc⟩ := h.head
    exact ⟨_, c, _, by rw [List.append_assoc, List.append_assoc, List.cons_append], hb, hs, hc⟩

theorem Grammar.Fields.head {blanks t : List Char} {fields : List (String × Value)}
    (h : Fields blanks t fields) : ∃ b rest, t = b ++ '"' :: rest ∧ b ⊆ blanks := by
  cases h with
  | @last a k a' b t b' _ _ ha _ _ _ _ _ =>
    exact ⟨a, k ++ '"' :: (a' ++ ':' :: (b ++ (t ++ b'))), by simp [quoted], ha⟩
  | @more a k a' b t b' ts _ _ _ ha _ _ _ _ _ _ =>
    exact ⟨a, k ++ '"' :: (a' ++ ':' :: (b ++ (t ++ (b' ++ ',' :: ts)))), by simp [quoted], ha⟩

theorem value?_bracket (fuel : Nat) (text : List Char) :
    value? (fuel + 1) ('[' :: text) =
      match skipSpace text with
      | ']' :: text => some (.arr [], text)
      | text => (items? fuel text).map fun r => (.arr r.1, r.2) := by
  rw [value?, skipSpace_cons rfl]
  rfl

theorem value?_brace (fuel : Nat) (text : List Char) :
    value? (fuel + 1) ('\x7b' :: text) =
      match skipSpace text with
      | '\x7d' :: text => some (.obj [], text)
      | text => (fields? fuel text).map fun r => (.obj (Table.ofPairs r.1), r.2) := by
  rw [value?, skipSpace_cons rfl]
  rfl

theorem value?_quoted {t s : List Char} (h : Characters t s) (fuel : Nat) (rest : List Char) :
    value? (fuel + 1) (quoted t ++ rest) = some (.str (String.ofList s), rest) := by
  have ht : quoted t ++ rest = '"' :: (t ++ '"' :: rest) := by simp [quoted]
  have hv : value? (fuel + 1) ('"' :: (t ++ '"' :: rest)) =
      (string? (t ++ '"' :: rest)).map fun s => (.str (String.ofList s.1), s.2) := by
    rw [value?, skipSpace_cons rfl]
    rfl
  rw [ht, hv, string?_append h]
  rfl

theorem value?_array {fuel : Nat} {t rest : List Char} {items : List Value}
    (h : Items spaces t items) (hi : items? fuel (t ++ ']' :: rest) = some (items, rest)) :
    value? (fuel + 1) ('[' :: (t ++ ']' :: rest)) = some (.arr items, rest) := by
  obtain ⟨b, c, more, rfl, hb, hs, hc⟩ := h.head
  have hskip : skipSpace (b ++ c :: more ++ ']' :: rest) = c :: (more ++ ']' :: rest) := by
    rw [List.append_assoc, List.cons_append, skipSpace_append_cons hb hs]
  rw [← items?_skipSpace, hskip] at hi
  rw [value?_bracket, hskip]
  split
  · rename_i heq
    exact absurd (List.cons.inj heq).1 hc
  · rw [hi]
    rfl

theorem value?_object {fuel : Nat} {t rest : List Char} {fields : List (String × Value)}
    (h : Fields spaces t fields)
    (hf : fields? fuel (t ++ '\x7d' :: rest) = some (fields, rest)) :
    value? (fuel + 1) ('\x7b' :: (t ++ '\x7d' :: rest)) =
      some (.obj (Table.ofPairs fields), rest) := by
  obtain ⟨b, more, rfl, hb⟩ := h.head
  have hskip : skipSpace (b ++ '"' :: more ++ '\x7d' :: rest) = '"' :: (more ++ '\x7d' :: rest) := by
    rw [List.append_assoc, List.cons_append, skipSpace_append_cons hb rfl]
  rw [← fields?_skipSpace, hskip] at hf
  rw [value?_brace, hskip]
  split
  · rename_i heq
    exact absurd (List.cons.inj heq).1 (by decide)
  · rw [hf]
    rfl

/-! ### Items and fields

What stands behind a value decides whether more is to come. -/

theorem items?_last {fuel : Nat} {text b rest : List Char} {v : Value}
    (hv : value? fuel text = some (v, b ++ ']' :: rest)) (hb : b ⊆ spaces) :
    items? (fuel + 1) text = some ([v], rest) := by
  rw [items?, hv]
  dsimp only
  rw [skipSpace_append_cons hb rfl]
  rfl

theorem items?_more {fuel : Nat} {text b next : List Char} {v : Value}
    (hv : value? fuel text = some (v, b ++ ',' :: next)) (hb : b ⊆ spaces) :
    items? (fuel + 1) text = (items? fuel next).map fun r => (v :: r.1, r.2) := by
  rw [items?, hv]
  dsimp only
  rw [skipSpace_append_cons hb rfl]
  rfl

section Fields

variable {fuel : Nat} {a k a' text b rest key : List Char} {v : Value}

/-- A key and its colon, from the first quote on. -/
theorem field_eq (a k a' text : List Char) :
    a ++ quoted k ++ a' ++ ':' :: text = a ++ '"' :: (k ++ '"' :: (a' ++ ':' :: text)) := by
  simp [quoted]

theorem fields?_last (ha : a ⊆ spaces) (hk : Characters k key) (ha' : a' ⊆ spaces)
    (hv : value? fuel text = some (v, b ++ '\x7d' :: rest)) (hb : b ⊆ spaces) :
    fields? (fuel + 1) (a ++ quoted k ++ a' ++ ':' :: text) =
      some ([(String.ofList key, v)], rest) := by
  have hcolon : isSpace ':' = false := rfl
  have hend : isSpace '\x7d' = false := rfl
  rw [field_eq, fields?, skipSpace_append_cons ha rfl]
  simp only [string?_append hk, skipSpace_append_cons ha' hcolon, hv, skipSpace_append_cons hb hend]

theorem fields?_more {next : List Char} (ha : a ⊆ spaces) (hk : Characters k key)
    (ha' : a' ⊆ spaces) (hv : value? fuel text = some (v, b ++ ',' :: next)) (hb : b ⊆ spaces) :
    fields? (fuel + 1) (a ++ quoted k ++ a' ++ ':' :: text) =
      (fields? fuel next).map fun r => ((String.ofList key, v) :: r.1, r.2) := by
  have hcolon : isSpace ':' = false := rfl
  have hcomma : isSpace ',' = false := rfl
  rw [field_eq, fields?, skipSpace_append_cons ha rfl]
  simp only [string?_append hk, skipSpace_append_cons ha' hcolon, hv,
    skipSpace_append_cons hb hcomma]

end Fields

theorem between_append (c d : Char) (t rest : List Char) :
    c :: t ++ [d] ++ rest = c :: (t ++ d :: rest) := by
  simp

/-! ### Any value

By induction on the fuel. It goes down by one with each value and with each item or field, and each of
them has a character of its own: the bracket before it, or what stands behind it. -/

/-- With this fuel, values of at most as many characters are read. -/
def ReadsValues (fuel : Nat) : Prop :=
  ∀ {t rest : List Char} {v : Value}, Denotes spaces t v → t.length ≤ fuel → Ends rest →
    value? fuel (t ++ rest) = some (v, rest)

def ReadsItems (fuel : Nat) : Prop :=
  ∀ {t rest : List Char} {items : List Value}, Items spaces t items → t.length < fuel →
    items? fuel (t ++ ']' :: rest) = some (items, rest)

def ReadsFields (fuel : Nat) : Prop :=
  ∀ {t rest : List Char} {fields : List (String × Value)}, Fields spaces t fields →
    t.length < fuel → fields? fuel (t ++ '\x7d' :: rest) = some (fields, rest)

variable {fuel : Nat}

theorem readsValues_succ (items : ReadsItems fuel) (fields : ReadsFields fuel) :
    ReadsValues (fuel + 1) := by
  intro t rest v h hf hr
  cases h with
  | null | boolTrue | boolFalse => rw [value?, List.cons_append, skipSpace_cons rfl]; rfl
  | number h => exact value?_number h hr fuel
  | string h => exact value?_quoted h fuel rest
  | emptyArray hb => rw [between_append, value?_bracket, skipSpace_append_cons hb rfl]; rfl
  | emptyObject hb => rw [between_append, value?_brace, skipSpace_append_cons hb rfl]; rfl
  | @array t _ h =>
    have hl : t.length < fuel := by
      simp only [List.length_cons, List.length_append, List.length_nil] at hf
      omega
    rw [between_append]
    exact value?_array h (items h hl)
  | @object t _ h =>
    have hl : t.length < fuel := by
      simp only [List.length_cons, List.length_append, List.length_nil] at hf
      omega
    rw [between_append]
    exact value?_object h (fields h hl)

/-- A value between white space, with the comma or bracket behind it. -/
theorem value?_padded (values : ReadsValues fuel) {b t b' : List Char} {v : Value} (hb : b ⊆ spaces)
    (h : Denotes spaces t v) (hl : t.length ≤ fuel) (hb' : b' ⊆ spaces) {c : Char}
    (hc : c ∈ [',', ']', '\x7d']) (rest : List Char) :
    value? fuel (b ++ (t ++ (b' ++ c :: rest))) = some (v, b' ++ c :: rest) := by
  rw [value?_blank hb]
  exact values h hl (ends_append hb' (ends_cons (.inr hc)))

theorem readsItems_succ (values : ReadsValues fuel) (more : ReadsItems fuel) :
    ReadsItems (fuel + 1) := by
  intro t rest items h hf
  cases h with
  | @last b t b' v hb h hb' =>
    have hl : t.length ≤ fuel := by
      simp only [List.length_append] at hf
      omega
    have hv := value?_padded values hb h hl hb' (c := ']') (by simp) rest
    simp only [List.append_assoc]
    exact items?_last hv hb'
  | @more b t b' ts v items hb h hb' hs =>
    have hl : t.length ≤ fuel ∧ ts.length < fuel := by
      simp only [List.length_append, List.length_cons] at hf
      omega
    have hv := value?_padded values hb h hl.1 hb' (c := ',') (by simp) (ts ++ ']' :: rest)
    simp only [List.append_assoc, List.cons_append]
    rw [items?_more hv hb', more hs hl.2]
    rfl

theorem readsFields_succ (values : ReadsValues fuel) (more : ReadsFields fuel) :
    ReadsFields (fuel + 1) := by
  intro t rest fields h hf
  cases h with
  | @last a k a' b t b' key v ha hk ha' hb h hb' =>
    have hl : t.length ≤ fuel := by
      simp only [List.length_append, List.length_cons] at hf
      omega
    have hv := value?_padded values hb h hl hb' (c := '\x7d') (by simp) rest
    have hfield := fields?_last ha hk ha' hv hb'
    simpa only [List.append_assoc, List.cons_append] using hfield
  | @more a k a' b t b' ts key v fields ha hk ha' hb h hb' hs =>
    have hl : t.length ≤ fuel ∧ ts.length < fuel := by
      simp only [List.length_append, List.length_cons] at hf
      omega
    have hv := value?_padded values hb h hl.1 hb' (c := ',') (by simp) (ts ++ '\x7d' :: rest)
    have hfield := fields?_more ha hk ha' hv hb'
    rw [more hs hl.2, Option.map_some] at hfield
    simpa only [List.append_assoc, List.cons_append] using hfield

theorem reads (fuel : Nat) : ReadsValues fuel ∧ ReadsItems fuel ∧ ReadsFields fuel := by
  induction fuel with
  | zero =>
    refine ⟨fun h hl => ?_, fun _ hl => ?_, fun _ hl => ?_⟩
    · obtain ⟨c, t, rfl, -⟩ := h.head
      exact absurd hl (by simp)
    · exact absurd hl (Nat.not_lt_zero _)
    · exact absurd hl (Nat.not_lt_zero _)
  | succ fuel ih =>
    obtain ⟨values, items, fields⟩ := ih
    exact ⟨readsValues_succ items fields, readsItems_succ values items,
      readsFields_succ values fields⟩

/-- Every text of the grammar is read as what it denotes. -/
theorem read?_of_text {t : List Char} {v : Value} (h : Grammar.Text spaces t v) :
    read? (String.ofList t) = some v := by
  cases h with
  | @mk b t b' _ hb h hb' =>
    have hl : t.length ≤ (String.ofList (b ++ t ++ b')).length + 1 := by
      rw [String.length_ofList, List.length_append, List.length_append]
      omega
    have hends : Ends b' := by simpa using ends_append hb' ends_nil
    have hv := (reads _).1 h hl hends
    rw [← value?_blank hb, ← List.append_assoc] at hv
    rw [read?, String.toList_ofList, hv]
    simp only [skipSpace_blank hb', if_true]

/-- A text denotes one value at most. -/
theorem Grammar.Text.unique {t : List Char} {v w : Value} (hv : Grammar.Text spaces t v)
    (hw : Grammar.Text spaces t w) : v = w := by
  have h := read?_of_text hv
  rw [read?_of_text hw] at h
  exact (Option.some.inj h).symm

end Json
end CodeIndex
