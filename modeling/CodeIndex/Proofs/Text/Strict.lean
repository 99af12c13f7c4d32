import CodeIndex.Proofs.Text.Utf8

/-!
# CodeIndex.Proofs.Text.Strict

Strict decoding accepts the encoded texts and no other byte string.

* `encode_of_piece`: a piece that is a character stands for the bytes of that character. So an overlong
  form, a surrogate and a sequence that is cut off are no characters.
* `decode?_eq_some_iff`: the texts that a byte string can be decoded to are those that are encoded by it.
-/

namespace CodeIndex
namespace Utf8

/-! ## What has been read where a character comes out -/

/-- One more byte with six bits, in its range. -/
theorem follow_succ {more low high bits : Nat} {bytes rest : List UInt8} {c : Char}
    (hlow : 0x80 ≤ low) (hhigh : high ≤ 0xBF)
    (h : follow (more + 1) low high bits bytes = (some c, rest)) :
    ∃ x behind, bytes = UInt8.ofNat (x + 128) :: behind ∧ x < 64 ∧ low ≤ x + 128 ∧ x + 128 ≤ high ∧
      follow more 0x80 0xBF (bits * 64 + x) behind = (some c, rest) := by
  cases bytes with
  | nil => cases h
  | cons byte behind =>
    rw [follow] at h
    split at h
    · rename_i fits
      refine ⟨byte.toNat - 0x80, behind, ?_, by omega, by omega, by omega, h⟩
      rw [Nat.sub_add_cancel (by omega), UInt8.ofNat_toNat]
    · cases h

/-- Two more bytes, of which the first has a range of its own. -/
theorem follow_two {low high bits : Nat} {bytes rest : List UInt8} {c : Char} (hlow : 0x80 ≤ low)
    (hhigh : high ≤ 0xBF) (h : follow 2 low high bits bytes = (some c, rest)) :
    ∃ x y, bytes = UInt8.ofNat (x + 128) :: UInt8.ofNat (y + 128) :: rest ∧ x < 64 ∧ y < 64 ∧
      low ≤ x + 128 ∧ x + 128 ≤ high ∧ c = Char.ofNat ((bits * 64 + x) * 64 + y) := by
  obtain ⟨x, behind, rfl, hx, hxl, hxh, h⟩ := follow_succ hlow hhigh h
  obtain ⟨y, behind, rfl, hy, -, -, h⟩ := follow_succ (by decide) (by decide) h
  cases h
  exact ⟨x, y, rfl, hx, hy, hxl, hxh, rfl⟩

/-- What a first byte can announce. -/
inductive Announces (byte : UInt8) : Lead → Prop where
  | one (hb : byte.toNat < 0x80) : Announces byte ⟨0, 0x80, 0xBF, byte.toNat⟩
  | two {bits : Nat} (hb : byte.toNat = bits + 0xC0) (hbits : 2 ≤ bits ∧ bits < 0x20) :
      Announces byte ⟨1, 0x80, 0xBF, bits⟩
  | three {low high bits : Nat} (hb : byte.toNat = bits + 0xE0) (hbits : bits < 0x10)
      (hlow : 0x80 ≤ low) (hhigh : high ≤ 0xBF) (long : bits = 0 → 0xA0 ≤ low)
      (surrogate : bits = 0xD → high ≤ 0x9F) : Announces byte ⟨2, low, high, bits⟩
  | four {low high bits : Nat} (hb : byte.toNat = bits + 0xF0) (hbits : bits < 5)
      (hlow : 0x80 ≤ low) (hhigh : high ≤ 0xBF) (long : bits = 0 → 0x90 ≤ low)
      (last : bits = 4 → high ≤ 0x8F) : Announces byte ⟨3, low, high, bits⟩

theorem announces_of_lead? {byte : UInt8} {l : Lead} (h : lead? byte = some l) :
    Announces byte l := by
  unfold lead? at h
  dsimp only at h
  by_cases h1 : byte.toNat < 0x80
  · rw [if_pos h1] at h
    cases h
    exact .one h1
  rw [if_neg h1] at h
  by_cases h2 : byte.toNat < 0xC2
  · rw [if_pos h2] at h
    cases h
  rw [if_neg h2] at h
  by_cases h3 : byte.toNat < 0xE0
  · rw [if_pos h3] at h
    cases h
    exact .two (by omega) (by omega)
  rw [if_neg h3] at h
  by_cases h4 : byte.toNat = 0xE0
  · rw [if_pos h4] at h
    cases h
    exact .three h4 (by decide) (by decide) (by decide) (by decide) (by decide)
  rw [if_neg h4] at h
  by_cases h5 : byte.toNat = 0xED
  · rw [if_pos h5] at h
    cases h
    exact .three h5 (by decide) (by decide) (by decide) (by decide) (by decide)
  rw [if_neg h5] at h
  by_cases h6 : byte.toNat < 0xF0
  · rw [if_pos h6] at h
    cases h
    exact .three (by omega) (by omega) (by decide) (by decide) (by omega) (by omega)
  rw [if_neg h6] at h
  by_cases h7 : byte.toNat = 0xF0
  · rw [if_pos h7] at h
    cases h
    exact .four h7 (by decide) (by decide) (by decide) (by decide) (by decide)
  rw [if_neg h7] at h
  by_cases h8 : byte.toNat < 0xF4
  · rw [if_pos h8] at h
    cases h
    exact .four (by omega) (by omega) (by decide) (by decide) (by omega) (by omega)
  rw [if_neg h8] at h
  by_cases h9 : byte.toNat = 0xF4
  · rw [if_pos h9] at h
    cases h
    exact .four h9 (by decide) (by decide) (by decide) (by decide) (by decide)
  · rw [if_neg h9] at h
    cases h

/-! ## The bytes of a code point -/

theorem val_ofNat {v : Nat} (h : v < 0xD800 ∨ 0xDFFF < v ∧ v < 0x110000) :
    (Char.ofNat v).val.toNat = v := by
  rw [Char.ofNat, dif_pos h]
  rfl

theorem utf8EncodeChar_one {v : Nat} (h : v < 0x80) :
    String.utf8EncodeChar (Char.ofNat v) = [UInt8.ofNat v] := by
  unfold String.utf8EncodeChar
  rw [val_ofNat (by omega)]
  dsimp only
  rw [if_pos (by omega)]

theorem utf8EncodeChar_two {a x : Nat} (ha : 2 ≤ a ∧ a < 0x20) (hx : x < 64) :
    String.utf8EncodeChar (Char.ofNat (a * 64 + x)) = [UInt8.ofNat (a + 0xC0), UInt8.ofNat (x + 128)] := by
  unfold String.utf8EncodeChar
  rw [val_ofNat (by omega)]
  dsimp only
  rw [if_neg (by omega), if_pos (by omega)]
  have h₁ : (a * 64 + x) / 64 % 32 = a := by omega
  have h₂ : (a * 64 + x) % 64 = x := by omega
  rw [h₁, h₂]

theorem utf8EncodeChar_three {a x y : Nat} (ha : a < 0x10) (hx : x < 64) (hy : y < 64)
    (long : a = 0 → 0x20 ≤ x) (surrogate : a = 0xD → x < 0x20) :
    String.utf8EncodeChar (Char.ofNat ((a * 64 + x) * 64 + y)) =
      [UInt8.ofNat (a + 0xE0), UInt8.ofNat (x + 128), UInt8.ofNat (y + 128)] := by
  unfold String.utf8EncodeChar
  rw [val_ofNat (by omega)]
  dsimp only
  rw [if_neg (by omega), if_neg (by omega), if_pos (by omega)]
  have h₁ : ((a * 64 + x) * 64 + y) / 4096 % 16 = a := by omega
  have h₂ : ((a * 64 + x) * 64 + y) / 64 % 64 = x := by omega
  have h₃ : ((a * 64 + x) * 64 + y) % 64 = y := by omega
  rw [h₁, h₂, h₃]

theorem utf8EncodeChar_four {a x y z : Nat} (ha : a < 5) (hx : x < 64) (hy : y < 64) (hz : z < 64)
    (long : a = 0 → 0x10 ≤ x) (last : a = 4 → x < 0x10) :
    String.utf8EncodeChar (Char.ofNat (((a * 64 + x) * 64 + y) * 64 + z)) =
      [UInt8.ofNat (a + 0xF0), UInt8.ofNat (x + 128), UInt8.ofNat (y + 128), UInt8.ofNat (z + 128)] := by
  unfold String.utf8EncodeChar
  rw [val_ofNat (by omega)]
  dsimp only
  rw [if_neg (by omega), if_neg (by omega), if_neg (by omega)]
  have h₁ : (((a * 64 + x) * 64 + y) * 64 + z) / 262144 % 8 = a := by omega
  have h₂ : (((a * 64 + x) * 64 + y) * 64 + z) / 4096 % 64 = x := by omega
  have h₃ : (((a * 64 + x) * 64 + y) * 64 + z) / 64 % 64 = y := by omega
  have h₄ : (((a * 64 + x) * 64 + y) * 64 + z) % 64 = z := by omega
  rw [h₁, h₂, h₃, h₄]

/-! ## Pieces -/

/-- A piece that is a character has the bytes of the character. -/
theorem encode_of_piece {byte : UInt8} {bytes rest : List UInt8} {c : Char}
    (h : piece byte bytes = (some c, rest)) : byte :: bytes = String.utf8EncodeChar c ++ rest := by
  have back : UInt8.ofNat byte.toNat = byte := UInt8.ofNat_toNat
  unfold piece at h
  split at h
  · cases h
  rename_i l hl
  cases announces_of_lead? hl with
  | one hb =>
    cases h
    rw [utf8EncodeChar_one hb, back]
    rfl
  | two hb hbits =>
    obtain ⟨x, behind, rfl, hx, -, -, h⟩ := follow_succ (Nat.le_refl _) (Nat.le_refl _) h
    cases h
    rw [utf8EncodeChar_two hbits hx, ← hb, back]
    rfl
  | three hb hbits hlow hhigh long surrogate =>
    obtain ⟨x, y, rfl, hx, hy, hxl, hxh, rfl⟩ := follow_two hlow hhigh h
    rw [utf8EncodeChar_three hbits hx hy (by omega) (by omega), ← hb, back]
    rfl
  | four hb hbits hlow hhigh long last =>
    obtain ⟨x, behind, rfl, hx, hxl, hxh, h⟩ := follow_succ hlow hhigh h
    obtain ⟨y, z, rfl, hy, hz, -, -, rfl⟩ := follow_two (by decide) (by decide) h
    rw [utf8EncodeChar_four hbits hx hy hz (by omega) (by omega), ← hb, back]
    rfl

/-- A byte string without ill-formed pieces is the encoded text of its characters. -/
theorem encode_of_pieces {bytes : List UInt8} {text : List Char} (h : pieces bytes = text.map some) :
    bytes = encode text := by
  induction text generalizing bytes with
  | nil =>
    cases bytes with
    | nil => rfl
    | cons byte bytes =>
      rw [pieces_cons] at h
      cases h
  | cons c text ih =>
    cases bytes with
    | nil =>
      rw [pieces] at h
      cases h
    | cons byte bytes =>
      rw [pieces_cons, List.map_cons, List.cons.injEq] at h
      rw [encode_cons, ← ih h.2]
      exact encode_of_piece (Prod.ext h.1 rfl)

/-! ## Texts -/

theorem mapM_id_eq_some_iff {α : Type} {xs : List (Option α)} {ys : List α} :
    xs.mapM id = some ys ↔ xs = ys.map some := by
  induction xs generalizing ys with
  | nil => cases ys <;> simp
  | cons x xs ih =>
    cases x with
    | none => cases ys <;> simp
    | some a => cases ys <;> simp [Option.bind_eq_some_iff, ih, and_comm]

/-- Strict decoding gives just the text that is encoded. -/
theorem decode?_eq_some_iff {bytes : List UInt8} {text : List Char} :
    decode? bytes = some text ↔ bytes = encode text := by
  unfold decode?
  rw [mapM_id_eq_some_iff]
  constructor
  · exact encode_of_pieces
  · rintro rfl
    exact pieces_encode text

theorem decode?_encode (text : List Char) : decode? (encode text) = some text :=
  decode?_eq_some_iff.mpr rfl

theorem decode?_eq_none_iff {bytes : List UInt8} :
    decode? bytes = none ↔ ∀ text, bytes ≠ encode text := by
  rw [Option.eq_none_iff_forall_ne_some]
  exact forall_congr' fun text => not_congr decode?_eq_some_iff

/-- The surrogate U+D800 in three bytes, and a slash in two. -/
example : decode? [0xED, 0xA0, 0x80] = none ∧ decode? [0xC0, 0xAF] = none := by cbv

end Utf8
end CodeIndex
