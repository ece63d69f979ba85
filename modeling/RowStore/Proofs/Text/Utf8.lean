import Mathlib
import RowStore.Text.Utf8

/-!
The bytes of a text spell that text again, and a byte of zero among them is a character of its own.
-/

namespace RowStore.Text.Utf8

@[simp]
theorem length_encode (text : String) : (encode text).length = text.utf8ByteSize := by
  rw [encode, String.toUTF8_eq_toByteArray, Array.length_toList]
  rfl

@[simp]
theorem decode?_encode (text : String) : decode? (encode text) = some text := by
  have bytes : (⟨(encode text).toArray⟩ : ByteArray) = text.toByteArray := by
    simp [encode]
  rw [decode?, bytes, String.fromUTF8?, dif_pos text.isValidUTF8]
  rfl

theorem encode_of_decode? {bytes : List UInt8} {text : String} (read : decode? bytes = some text) :
    encode text = bytes := by
  rw [decode?, String.fromUTF8?] at read
  split at read
  · cases read
    simp [encode, String.fromUTF8]
  · cases read

theorem encode_eq_flatMap (text : String) :
    encode text = text.toList.flatMap String.utf8EncodeChar := by
  rw [encode, String.toUTF8_eq_toByteArray, ← String.utf8Encode_toList, List.utf8Encode]
  simp

/-- Only the NUL character has a byte of zero. -/
theorem eq_nul_of_zero_mem {c : Char} (member : 0 ∈ String.utf8EncodeChar c) : c = '\x00' := by
  have nonzero (value : Nat) (small : value < 256) (positive : 0 < value) :
      (0 : UInt8) ≠ UInt8.ofNat value := by
    intro same
    have values := congrArg UInt8.toNat same
    rw [UInt8.toNat_ofNat_of_lt' small] at values
    simp at values
    omega
  rw [String.utf8EncodeChar] at member
  apply Char.ext
  apply UInt32.toNat_inj.mp
  change c.val.toNat = 0
  by_contra positive
  split at member
  · simp only [List.mem_singleton] at member
    exact nonzero _ (by omega) (by omega) member
  · split at member
    · simp only [List.mem_cons, List.not_mem_nil, or_false] at member
      rcases member with member | member <;> exact nonzero _ (by omega) (by omega) member
    · split at member
      · simp only [List.mem_cons, List.not_mem_nil, or_false] at member
        rcases member with member | member | member <;>
          exact nonzero _ (by omega) (by omega) member
      · simp only [List.mem_cons, List.not_mem_nil, or_false] at member
        rcases member with member | member | member | member <;>
          exact nonzero _ (by omega) (by omega) member

/-- A byte of zero at a position is a NUL character no further behind. -/
theorem nul_mem_take (chars : List Char) (position : Nat)
    (zero : (chars.flatMap String.utf8EncodeChar)[position]? = some 0) :
    '\x00' ∈ chars.take (position + 1) := by
  induction chars generalizing position with
  | nil => simp at zero
  | cons c rest ih =>
    rw [List.flatMap_cons] at zero
    by_cases inside : position < (String.utf8EncodeChar c).length
    · rw [List.getElem?_append_left inside] at zero
      rw [eq_nul_of_zero_mem (List.mem_of_getElem? zero)]
      exact List.mem_cons_self
    · have behind := Nat.le_of_not_lt inside
      have positive : 0 < (String.utf8EncodeChar c).length := by
        rw [String.length_utf8EncodeChar]
        exact c.utf8Size_pos
      rw [List.getElem?_append_right behind] at zero
      have later := List.take_subset_take_left rest
        (show position - (String.utf8EncodeChar c).length + 1 ≤ position by omega) (ih _ zero)
      rw [List.take_succ_cons]
      exact List.mem_cons_of_mem _ later

end RowStore.Text.Utf8
