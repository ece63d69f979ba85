import Mathlib
import RowStore.Bytes.BigEndian
import RowStore.Bytes.Overwrite

/-!
Laws of bytes: what a number becomes when it is written and read again, and which byte stands at a
position after bytes are written over an array.
-/

namespace RowStore.Bytes

theorem toNat_concat (bytes : List UInt8) (byte : UInt8) :
    toNat (bytes ++ [byte]) = toNat bytes * 256 + byte.toNat := by
  simp [toNat]

/-- Writing a number keeps it modulo the numbers of its width. -/
theorem toNat_ofNat (width value : Nat) : toNat (ofNat width value) = value % 256 ^ width := by
  induction width generalizing value with
  | zero => simp [ofNat, toNat, Nat.mod_one]
  | succ width ih =>
    rw [ofNat, toNat_concat, ih, UInt8.toNat_ofNat', pow_succ' 256 width, Nat.mod_mul]
    omega

theorem toNat_lt (bytes : List UInt8) : toNat bytes < 256 ^ bytes.length := by
  induction bytes using List.reverseRecOn with
  | nil => exact Nat.one_pos
  | append_singleton bytes byte ih =>
    have low := byte.toNat_lt
    rw [toNat_concat, List.length_append, List.length_singleton, Nat.pow_succ]
    omega

/-- Bytes are written back from the number that they spell. -/
theorem ofNat_toNat (bytes : List UInt8) : ofNat bytes.length (toNat bytes) = bytes := by
  induction bytes using List.reverseRecOn with
  | nil => rfl
  | append_singleton bytes byte ih =>
    have low := byte.toNat_lt
    have high : (toNat bytes * 256 + byte.toNat) / 256 = toNat bytes := by omega
    have last : UInt8.ofNat (toNat bytes * 256 + byte.toNat) = byte := by
      apply UInt8.toNat_inj.mp
      rw [UInt8.toNat_ofNat']
      omega
    rw [toNat_concat, List.length_append, List.length_singleton, ofNat, high, last, ih]

/-- Writing changes the positions it covers and no other. -/
theorem getElem?_overwrite (array : Array UInt8) (start : Nat) (bytes : List UInt8) (position : Nat) :
    (overwrite array start bytes)[position]? =
      if start ≤ position ∧ position < array.size ∧ position < start + bytes.length
      then bytes[position - start]? else array[position]? := by
  induction bytes generalizing array start with
  | nil =>
    rw [overwrite, if_neg]
    simp only [List.length_nil]
    omega
  | cons byte rest ih =>
    rw [overwrite, ih]
    simp only [Array.size_setIfInBounds, List.length_cons, Array.getElem?_setIfInBounds]
    by_cases here : start = position
    · subst here
      by_cases inside : start < array.size
      · simp [inside]
      · simp [inside]
    · by_cases covered : start ≤ position
      · obtain ⟨offset, rfl⟩ : ∃ offset, position = start + (offset + 1) :=
          ⟨position - start - 1, by omega⟩
        rw [show start + (offset + 1) - (start + 1) = offset by omega,
          show start + (offset + 1) - start = offset + 1 by omega, List.getElem?_cons_succ]
        rw [if_neg here]
        congr 1
        simp only [eq_iff_iff]
        omega
      · rw [if_neg (by omega), if_neg here, if_neg (by omega)]

end RowStore.Bytes
