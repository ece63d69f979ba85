import RowStore.Bytes.Lemmas

/-!
What is read from a stretch of an array after bytes were written over it: the bytes themselves where
the stretch is the one they cover, and what stood there before where the two do not meet.
-/

namespace RowStore.Bytes

theorem getElem?_slice (array : Array UInt8) (start count offset : Nat) :
    (slice array start count)[offset]? =
      if offset < count then array[start + offset]? else none := by
  rw [slice, Array.getElem?_toList, Array.getElem?_extract]
  by_cases within : offset < count
  · by_cases inside : start + offset < array.size
    · simp only [within, ↓reduceIte]
      rw [if_pos (by omega)]
    · simp only [within, ↓reduceIte]
      rw [if_neg (by omega), Array.getElem?_eq_none (by omega)]
  · simp only [within, ↓reduceIte]
    rw [if_neg (by omega)]

theorem slice_overwrite_of_apart (array : Array UInt8) (position : Nat) (bytes : List UInt8)
    (start count : Nat) (apart : start + count ≤ position ∨ position + bytes.length ≤ start) :
    slice (overwrite array position bytes) start count = slice array start count := by
  apply List.ext_getElem?
  intro offset
  rw [getElem?_slice, getElem?_slice]
  by_cases within : offset < count
  · rw [if_pos within, if_pos within, getElem?_overwrite, if_neg]
    omega
  · rw [if_neg within, if_neg within]

theorem slice_overwrite_self (array : Array UInt8) (position : Nat) (bytes : List UInt8)
    (inside : position + bytes.length ≤ array.size) :
    slice (overwrite array position bytes) position bytes.length = bytes := by
  apply List.ext_getElem?
  intro offset
  rw [getElem?_slice]
  by_cases within : offset < bytes.length
  · rw [if_pos within, getElem?_overwrite, if_pos (by omega), Nat.add_sub_cancel_left]
  · rw [if_neg within, List.getElem?_eq_none (by omega)]

/-- Bytes in two parts are written one part after the other. -/
theorem overwrite_append (array : Array UInt8) (position : Nat) (first second : List UInt8) :
    overwrite array position (first ++ second) =
      overwrite (overwrite array position first) (position + first.length) second := by
  induction first generalizing array position with
  | nil => rfl
  | cons byte rest ih =>
    rw [List.cons_append, overwrite, overwrite, ih, List.length_cons]
    congr 1
    omega

end RowStore.Bytes
