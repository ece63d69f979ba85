import RowStore.Page.Slots
import RowStore.Proofs.Bytes.Slice

/-!
The fields of a page after bytes are written over it. A field that the bytes do not meet keeps its
number, and a field that is written holds what was written.
-/

namespace RowStore.Page

@[simp]
theorem size_bytes (page : Page) : page.bytes.size = blockSize := page.block.size_toArray

theorem bytes_write (page : Page) (start : Nat) (bytes : List UInt8) :
    (page.write start bytes).bytes = Bytes.overwrite page.bytes start bytes := rfl

theorem slice_write_of_apart (page : Page) (position : Nat) (bytes : List UInt8) (start count : Nat)
    (apart : start + count ≤ position ∨ position + bytes.length ≤ start) :
    Bytes.slice (page.write position bytes).bytes start count = Bytes.slice page.bytes start count := by
  rw [bytes_write]
  exact Bytes.slice_overwrite_of_apart _ _ _ _ _ apart

theorem slice_write_self (page : Page) (position : Nat) (bytes : List UInt8)
    (inside : position + bytes.length ≤ blockSize) :
    Bytes.slice (page.write position bytes).bytes position bytes.length = bytes := by
  rw [bytes_write]
  exact Bytes.slice_overwrite_self _ _ _ (by simpa using inside)

theorem field_write_of_apart (page : Page) (position : Nat) (bytes : List UInt8) (start width : Nat)
    (apart : start + width ≤ position ∨ position + bytes.length ≤ start) :
    (page.write position bytes).field start width = page.field start width := by
  rw [field, field, slice_write_of_apart page position bytes start width apart]

theorem field_write_self (page : Page) (position width value : Nat)
    (inside : position + width ≤ blockSize) :
    (page.write position (Bytes.ofNat width value)).field position width = value % 256 ^ width := by
  have read := slice_write_self page position (Bytes.ofNat width value) (by simpa using inside)
  rw [Bytes.length_ofNat] at read
  rw [field, read, Bytes.toNat_ofNat]

theorem write_append (page : Page) (position : Nat) (first second : List UInt8) :
    page.write position (first ++ second) =
      (page.write position first).write (position + first.length) second := by
  simp only [write, Block.overwrite, Bytes.overwrite_append]

end RowStore.Page
