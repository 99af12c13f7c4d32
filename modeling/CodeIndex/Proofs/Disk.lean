import CodeIndex.Disk
import CodeIndex.Proofs.Text.Newline
import CodeIndex.Proofs.Text.Strict

/-!
# CodeIndex.Proofs.Disk

Reading what is stored on the disk.

* `decode_eq_ok_iff`, `decode_eq_error_iff`: which bytes are read as which text, and which as none.
* `text_eq_error_iff`: why a file cannot be read as text.
* `bytes_write`: what is written over a file is what is read from it afterwards.
-/

namespace CodeIndex
namespace Disk

variable {disk : Disk} {file : String}

/-! ## Texts -/

theorem decode_eq_ok_iff {bytes : List UInt8} {text : String} :
    decode bytes = .ok text ↔
      ∃ chars, bytes = Utf8.encode chars ∧ Newline.Translates chars text.toList := by
  unfold decode
  constructor
  · intro h
    split at h
    · rename_i chars hchars
      cases h
      refine ⟨chars, Utf8.decode?_eq_some_iff.mp hchars, ?_⟩
      rw [String.toList_ofList]
      exact Newline.translates_normalize chars
    · cases h
  · rintro ⟨chars, rfl, h⟩
    rw [Utf8.decode?_encode]
    dsimp only
    rw [← h.eq_normalize, String.ofList_toList]

theorem decode_eq_error_iff {bytes : List UInt8} {fault : ReadFault} :
    decode bytes = .error fault ↔ fault = .notUtf8 ∧ ∀ chars, bytes ≠ Utf8.encode chars := by
  rw [← Utf8.decode?_eq_none_iff]
  unfold decode
  cases Utf8.decode? bytes <;> simp [eq_comm]

/-- A text without carriage returns is read as it was encoded. -/
theorem decode_encode {text : String} (h : '\r' ∉ text.toList) :
    decode (Utf8.encode text.toList) = .ok text :=
  decode_eq_ok_iff.mpr ⟨_, rfl, Newline.translates_self h⟩

theorem text_of_bytes {bytes : List UInt8} (h : disk.bytes file = .ok bytes) :
    disk.text file = decode bytes := by
  rw [text, h]

theorem text_eq_ok_iff {text : String} :
    disk.text file = .ok text ↔
      ∃ chars, disk.bytes file = .ok (Utf8.encode chars) ∧
        Newline.Translates chars text.toList := by
  unfold Disk.text
  cases hb : disk.bytes file with
  | error fault => simp
  | ok bytes => simp [decode_eq_ok_iff]

/-- No bytes are found, or they encode no text. -/
theorem text_eq_error_iff {fault : ReadFault} :
    disk.text file = .error fault ↔
      disk.bytes file = .error fault ∨
        fault = .notUtf8 ∧
          ∃ bytes, disk.bytes file = .ok bytes ∧ ∀ chars, bytes ≠ Utf8.encode chars := by
  unfold Disk.text
  cases hb : disk.bytes file with
  | error fault' => simp
  | ok bytes => simp [decode_eq_error_iff]

/-! ## Writing over a file -/

theorem look_of_ne_nil {above : List (List Char)} (h : above ≠ []) :
    disk.look above = disk.get? (idOf above) := if_neg h

theorem length_join_pos {above : List (List Char)} (h : above ≠ []) (c : List Char)
    (below : List (List Char)) :
    (Path.join above).length < (Path.join (above ++ c :: below)).length := by
  obtain ⟨a, above, rfl⟩ := List.exists_cons_of_ne_nil h
  simp [Path.join]

/-- What is above a file has another id. -/
theorem idOf_ne {above : List (List Char)} (h : above ≠ []) (c : List Char)
    (below : List (List Char)) : idOf (above ++ c :: below) ≠ idOf above := by
  intro he
  have hlt := length_join_pos h c below
  rw [← String.ofList_injective he] at hlt
  exact Nat.lt_irrefl _ hlt

/-- An entry below does not change what is above it. -/
theorem look_insert_above (entry : Entry) (above : List (List Char)) (c : List Char)
    (below : List (List Char)) :
    look (disk.insert (idOf (above ++ c :: below)) entry) above = disk.look above := by
  by_cases h : above = []
  · rw [h, look, look, if_pos rfl, if_pos rfl]
  · rw [look_of_ne_nil h, look_of_ne_nil h, Table.get?_insert, if_neg (idOf_ne h c below)]

/-- What is entered on the way to a file. -/
theorem enter_cons {above below : List (List Char)} {c : List Char} {bytes : List UInt8} :
    disk.enter above (c :: below) = .ok bytes ↔
      disk.look above = some .directory ∧ (Utf8.encode c).length ≤ maxName ∧
        disk.enter (above ++ [c]) below = .ok bytes := by
  rw [enter]
  cases disk.look above with
  | none => simp
  | some entry =>
    cases entry with
    | file bytes => simp
    | locked => simp
    | directory =>
      dsimp only
      split_ifs with h
      · simp [Nat.not_le_of_lt h]
      · simp [Nat.le_of_not_lt h]

theorem addParents_of_enter {above below : List (List Char)} {bytes : List UInt8}
    (h : disk.enter above below = .ok bytes) : disk.addParents above below = disk := by
  induction below generalizing above with
  | nil => rfl
  | cons c below ih =>
    obtain ⟨hlook, -, h⟩ := enter_cons.mp h
    rw [addParents, hlook]
    exact ih h

theorem enter_insert {above below : List (List Char)} {old : List UInt8}
    (h : disk.enter above below = .ok old) (new : List UInt8) :
    enter (disk.insert (idOf (above ++ below)) (.file new)) above below = .ok new := by
  induction below generalizing above with
  | nil =>
    have hne : above ≠ [] := by
      rintro rfl
      cases h
    rw [List.append_nil, enter, look_of_ne_nil hne, Table.get?_insert, if_pos rfl]
  | cons c below ih =>
    obtain ⟨hlook, hlength, h⟩ := enter_cons.mp h
    have hnew := ih h
    rw [List.append_assoc, List.singleton_append] at hnew
    refine enter_cons.mpr ⟨?_, hlength, hnew⟩
    rw [look_insert_above, hlook]

theorem bytes_write {old : List UInt8} (h : disk.bytes file = .ok old) (new : List UInt8) :
    bytes (disk.write file (.file new)) file = .ok new := by
  unfold bytes at h ⊢
  unfold write
  dsimp only
  rw [addParents_of_enter h]
  exact enter_insert h new

end Disk
end CodeIndex
