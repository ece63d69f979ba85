import RowStore.Bytes.Overwrite

/-!
Blocks: stretches of 4096 bytes, in which files are kept and pages are read and written.
-/

namespace RowStore

/-- The bytes of one block. -/
def blockSize : Nat := 4096

/-- A stretch of bytes of a fixed size. -/
abbrev Block := Vector UInt8 blockSize

namespace Block

/-- The block of zeros. -/
def zero : Block := Vector.replicate blockSize 0

/-- The block that an array of bytes is, if it is of that size. -/
def ofBytes? (bytes : Array UInt8) : Option Block :=
  if size_bytes : bytes.size = blockSize then some ⟨bytes, size_bytes⟩ else none

/-- A block with bytes written over it from a position on. -/
def overwrite (block : Block) (start : Nat) (bytes : List UInt8) : Block :=
  ⟨Bytes.overwrite block.toArray start bytes, by simp⟩

end Block

end RowStore
