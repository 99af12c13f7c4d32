import CodeIndex.Text.Utf8
import Mathlib.Data.List.Infix

/-!
# CodeIndex.Proofs.Text.Utf8

Decoding undoes encoding, also where bytes are cut out of an encoded text between characters.

* `piece_encodeChar`: the bytes of a character are one piece, whatever follows.
* `decodeLossy_encode`: decoding an encoded text gives the text; `decodeLossy_encode_append`: also in front
  of other bytes.
* `Boundary`: the places between the characters of an encoded text, as numbers of bytes.
* `Between`: what stands between two of them. It is what is cut out of the encoded text there.
* `infix_of_cut`: what is cut out between two such places is a part of what is cut out around them.
-/

namespace CodeIndex
namespace Utf8

@[simp] theorem encode_nil : encode [] = [] := rfl

@[simp] theorem encode_cons (c : Char) (text : List Char) :
    encode (c :: text) = String.utf8EncodeChar c ++ encode text := by
  simp [encode]

theorem encode_append (s t : List Char) : encode (s ++ t) = encode s ++ encode t := by
  simp [encode]

/-! ## One character -/

theorem toNat_byte {n : Nat} (h : n < 256) : (UInt8.ofNat n).toNat = n := by
  rw [UInt8.toNat_ofNat']
  exact Nat.mod_eq_of_lt h

/-- A byte of six bits that continues a character. -/
theorem follow_cons {more low high bits x : Nat} (hx : x < 64) (hlow : low ≤ x + 128)
    (hhigh : x + 128 ≤ high) (rest : List UInt8) :
    follow (more + 1) low high bits (UInt8.ofNat (x + 128) :: rest) =
      follow more 0x80 0xBF (bits * 64 + x) rest := by
  have hb : (UInt8.ofNat (x + 128)).toNat = x + 128 := toNat_byte (by omega)
  rw [follow, hb, if_pos ⟨hlow, hhigh⟩, Nat.add_sub_cancel]

theorem toNat_le (c : Char) : c.toNat ≤ 0x10FFFF ∧ ¬(0xD800 ≤ c.toNat ∧ c.toNat ≤ 0xDFFF) := by
  have hv : c.toNat < 0xD800 ∨ 0xDFFF < c.toNat ∧ c.toNat < 0x110000 := c.valid
  omega

theorem lead?_two {v : Nat} (hlow : 0x80 ≤ v) (hhigh : v ≤ 0x7FF) :
    lead? (UInt8.ofNat (v / 64 % 32 + 0xC0)) = some ⟨1, 0x80, 0xBF, v / 64⟩ := by
  have hb := toNat_byte (by omega : v / 64 % 32 + 0xC0 < 256)
  have hbits : v / 64 % 32 + 0xC0 - 0xC0 = v / 64 := by omega
  unfold lead?
  dsimp only
  rw [hb, if_neg (by omega), if_neg (by omega), if_pos (by omega), hbits]

/-- Not every byte may follow: the code point is not too small, and it is no surrogate. -/
theorem lead?_three {v : Nat} (hlow : 0x800 ≤ v) (hhigh : v ≤ 0xFFFF)
    (hsurrogate : ¬(0xD800 ≤ v ∧ v ≤ 0xDFFF)) :
    ∃ low high, lead? (UInt8.ofNat (v / 4096 % 16 + 0xE0)) = some ⟨2, low, high, v / 4096⟩ ∧
      low ≤ v / 64 % 64 + 128 ∧ v / 64 % 64 + 128 ≤ high := by
  have hb := toNat_byte (by omega : v / 4096 % 16 + 0xE0 < 256)
  unfold lead?
  dsimp only
  rw [hb, if_neg (by omega), if_neg (by omega), if_neg (by omega)]
  by_cases h0 : v / 4096 = 0
  · rw [if_pos (by omega), h0]
    exact ⟨_, _, rfl, by omega, by omega⟩
  rw [if_neg (by omega)]
  by_cases hD : v / 4096 = 0xD
  · rw [if_pos (by omega), hD]
    exact ⟨_, _, rfl, by omega, by omega⟩
  have hbits : v / 4096 % 16 + 0xE0 - 0xE0 = v / 4096 := by omega
  rw [if_neg (by omega), if_pos (by omega), hbits]
  exact ⟨_, _, rfl, by omega, by omega⟩

theorem lead?_four {v : Nat} (hlow : 0x10000 ≤ v) (hhigh : v ≤ 0x10FFFF) :
    ∃ low high, lead? (UInt8.ofNat (v / 262144 % 8 + 0xF0)) = some ⟨3, low, high, v / 262144⟩ ∧
      low ≤ v / 4096 % 64 + 128 ∧ v / 4096 % 64 + 128 ≤ high := by
  have hb := toNat_byte (by omega : v / 262144 % 8 + 0xF0 < 256)
  unfold lead?
  dsimp only
  rw [hb, if_neg (by omega), if_neg (by omega), if_neg (by omega), if_neg (by omega),
    if_neg (by omega), if_neg (by omega)]
  by_cases h0 : v / 262144 = 0
  · rw [if_pos (by omega), h0]
    exact ⟨_, _, rfl, by omega, by omega⟩
  rw [if_neg (by omega)]
  by_cases h4 : v / 262144 = 4
  · rw [if_neg (by omega), if_pos (by omega), h4]
    exact ⟨_, _, rfl, by omega, by omega⟩
  have hbits : v / 262144 % 8 + 0xF0 - 0xF0 = v / 262144 := by omega
  rw [if_pos (by omega), hbits]
  exact ⟨_, _, rfl, by omega, by omega⟩

/-- The bytes of a character are one piece, whatever stands behind them. -/
theorem piece_encodeChar (c : Char) (rest : List UInt8) :
    ∃ byte bytes, String.utf8EncodeChar c = byte :: bytes ∧
      piece byte (bytes ++ rest) = (some c, rest) := by
  obtain ⟨hmax, hsurrogate⟩ := toNat_le c
  have hc : Char.ofNat c.toNat = c := Char.ofNat_toNat c
  have hval : c.val.toNat = c.toNat := rfl
  have hlast : c.toNat % 64 < 64 := Nat.mod_lt _ (by decide)
  unfold String.utf8EncodeChar
  rw [hval]
  dsimp only
  generalize c.toNat = v at *
  -- one byte, two, three, or four
  split_ifs with h1 h2 h3
  · have hb := toNat_byte (by omega : v < 256)
    have hl : lead? (UInt8.ofNat v) = some ⟨0, 0x80, 0xBF, v⟩ := by
      unfold lead?
      dsimp only
      rw [hb, if_pos (by omega)]
    refine ⟨_, _, rfl, ?_⟩
    rw [piece, hl, List.nil_append]
    dsimp only
    rw [follow, hc]
  · have hbits : v / 64 * 64 + v % 64 = v := by omega
    refine ⟨_, _, rfl, ?_⟩
    rw [piece, lead?_two (by omega) h2]
    simp only [List.cons_append, List.nil_append]
    rw [follow_cons hlast (by omega) (by omega), follow, hbits, hc]
  · have hbits : (v / 4096 * 64 + v / 64 % 64) * 64 + v % 64 = v := by omega
    obtain ⟨low, high, hl, hlow, hhigh⟩ := lead?_three (by omega) h3 hsurrogate
    refine ⟨_, _, rfl, ?_⟩
    rw [piece, hl]
    simp only [List.cons_append, List.nil_append]
    rw [follow_cons (by omega) hlow hhigh, follow_cons hlast (by omega) (by omega), follow, hbits, hc]
  · have hbits : ((v / 262144 * 64 + v / 4096 % 64) * 64 + v / 64 % 64) * 64 + v % 64 = v := by omega
    obtain ⟨low, high, hl, hlow, hhigh⟩ := lead?_four (by omega) hmax
    refine ⟨_, _, rfl, ?_⟩
    rw [piece, hl]
    simp only [List.cons_append, List.nil_append]
    rw [follow_cons (by omega) hlow hhigh, follow_cons (by omega) (by omega) (by omega),
      follow_cons hlast (by omega) (by omega), follow, hbits, hc]

/-! ## Texts -/

/-- What has been encoded is decoded by itself. Nothing is read across its end, whatever follows. -/
theorem pieces_encode_append (text : List Char) (rest : List UInt8) :
    pieces (encode text ++ rest) = text.map some ++ pieces rest := by
  induction text with
  | nil => rfl
  | cons c text ih =>
    obtain ⟨byte, bytes, hc, hp⟩ := piece_encodeChar c (encode text ++ rest)
    rw [encode_cons, hc, List.append_assoc, List.cons_append, pieces_cons, hp, ih, List.map_cons,
      List.cons_append]

theorem pieces_encode (text : List Char) : pieces (encode text) = text.map some := by
  have h := pieces_encode_append text []
  rwa [List.append_nil, pieces, List.append_nil] at h

theorem decodeLossy_encode_append (text : List Char) (rest : List UInt8) :
    decodeLossy (encode text ++ rest) = text ++ decodeLossy rest := by
  rw [decodeLossy, pieces_encode_append, List.map_append, List.map_map]
  exact congrArg (· ++ decodeLossy rest) (List.map_id' text)

theorem decodeLossy_encode (text : List Char) : decodeLossy (encode text) = text := by
  rw [decodeLossy, pieces_encode, List.map_map]
  exact List.map_id' text

theorem length_encode_pos {text : List Char} (h : text ≠ []) : 0 < (encode text).length := by
  cases text with
  | nil => exact absurd rfl h
  | cons c text =>
    have hpos := c.utf8Size_pos
    rw [encode_cons, List.length_append, String.length_utf8EncodeChar]
    omega

/-! ## Places in an encoded text -/

/-- The characters before the place make `k` bytes. -/
def Boundary (text : List Char) (k : Nat) : Prop :=
  ∃ before, before <+: text ∧ (encode before).length = k

/-- Of two places, the one with fewer bytes before it comes first. -/
theorem prefix_of_length_le {text s t : List Char} (hs : s <+: text) (ht : t <+: text)
    (h : (encode s).length ≤ (encode t).length) : s <+: t := by
  rcases List.prefix_or_prefix_of_prefix hs ht with hst | hts
  · exact hst
  · obtain ⟨more, rfl⟩ := hts
    rw [encode_append, List.length_append] at h
    have hmore : more = [] := by
      by_contra hne
      have hpos := length_encode_pos hne
      omega
    rw [hmore, List.append_nil]

/-- The bytes from the place `i` to the place `j`. -/
def cut (bytes : List UInt8) (i j : Nat) : List UInt8 := (bytes.drop i).take (j - i)

theorem cut_encode (before mid after : List Char) :
    cut (encode (before ++ mid ++ after)) (encode before).length (encode (before ++ mid)).length =
      encode mid := by
  have hlen : (encode (before ++ mid)).length - (encode before).length = (encode mid).length := by
    rw [encode_append, List.length_append]
    omega
  rw [cut, hlen, List.append_assoc, encode_append, List.drop_left, encode_append, List.take_left]

/-- `part` is what stands in the text from the place `i` to the place `j`. -/
def Between (text : List Char) (i j : Nat) (part : List Char) : Prop :=
  ∃ before after, text = before ++ part ++ after ∧ (encode before).length = i ∧
    (encode (before ++ part)).length = j

theorem Between.cut_eq {text part : List Char} {i j : Nat} (h : Between text i j part) :
    cut (encode text) i j = encode part := by
  obtain ⟨before, after, rfl, rfl, rfl⟩ := h
  exact cut_encode before part after

theorem Boundary.between {text : List Char} {i j : Nat} (hi : Boundary text i)
    (hj : Boundary text j) (hle : i ≤ j) : ∃ part, Between text i j part := by
  obtain ⟨before, hbefore, rfl⟩ := hi
  obtain ⟨upto, hupto, rfl⟩ := hj
  obtain ⟨part, rfl⟩ := prefix_of_length_le hbefore hupto hle
  obtain ⟨after, rfl⟩ := hupto
  exact ⟨part, before, after, rfl, rfl, rfl⟩

theorem cut_append (bytes : List UInt8) {i j k : Nat} (hij : i ≤ j) (hjk : j ≤ k) :
    cut bytes i k = cut bytes i j ++ cut bytes j k := by
  have hlen : k - i = (j - i) + (k - j) := by omega
  rw [cut, hlen, List.take_add, List.drop_drop, Nat.add_sub_cancel' hij]
  rfl

/-- What is cut out inside of another cut is a part of it. -/
theorem infix_of_cut {text : List Char} {i i' j' j : Nat} (hi : Boundary text i)
    (hi' : Boundary text i') (hj' : Boundary text j') (hj : Boundary text j) (hle : i ≤ i')
    (hle' : j' ≤ j) :
    decodeLossy (cut (encode text) i' j') <:+: decodeLossy (cut (encode text) i j) := by
  -- nothing is cut out, or the four places are in this order
  by_cases hij : j' ≤ i'
  · have hcut : cut (encode text) i' j' = [] := by
      rw [cut, Nat.sub_eq_zero_of_le hij, List.take_zero]
    rw [hcut]
    simp [decodeLossy, pieces]
  obtain ⟨left, hleft⟩ := hi.between hi' hle
  obtain ⟨mid, hmid⟩ := hi'.between hj' (by omega)
  obtain ⟨right, hright⟩ := hj'.between hj hle'
  have whole : cut (encode text) i j = encode (left ++ (mid ++ right)) := by
    rw [cut_append _ hle (by omega), cut_append _ (by omega : i' ≤ j') hle', hleft.cut_eq, hmid.cut_eq,
      hright.cut_eq, encode_append, encode_append]
  rw [hmid.cut_eq, whole, decodeLossy_encode, decodeLossy_encode, ← List.append_assoc]
  exact List.infix_append left mid right

end Utf8
end CodeIndex
