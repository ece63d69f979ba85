/-!
Unsigned numbers as bytes of a fixed width, most significant first. A number too large for its
width keeps its low bytes.
-/

namespace RowStore.Bytes

/-- The number that bytes spell, most significant first. -/
def toNat (bytes : List UInt8) : Nat := bytes.foldl (fun value byte => value * 256 + byte.toNat) 0

/-- The `width` low bytes of a number, most significant first. -/
def ofNat : (width value : Nat) → List UInt8
  | 0, _ => []
  | width + 1, value => ofNat width (value / 256) ++ [UInt8.ofNat value]

@[simp]
theorem length_ofNat (width value : Nat) : (ofNat width value).length = width := by
  induction width generalizing value with
  | zero => rfl
  | succ width ih => simp [ofNat, ih]

/-- Four bytes as one word. -/
def word (bytes : List UInt8) : UInt32 := UInt32.ofNat (toNat bytes)

/-- One word as four bytes. -/
def ofWord (value : UInt32) : List UInt8 := ofNat 4 value.toNat

end RowStore.Bytes
