import Std.Data.TreeMap
import RowStore.Bytes.Block

/-!
The contents of a file: its size, and its bytes in blocks. A block that was never written is not
kept and is all zeros, so a file may be far larger than what was written to it.
-/

namespace RowStore

/-- The size of a file and those of its blocks that were written. -/
structure Contents where
  size : Nat
  blocks : Std.TreeMap Nat Block

namespace Contents

/-- The contents of an empty file. -/
def empty : Contents := ⟨0, {}⟩

/-- The block of a number. -/
def block (contents : Contents) (number : Nat) : Block := contents.blocks.getD number .zero

/-- Puts bytes into blocks, from a position on. -/
def put (blocks : Std.TreeMap Nat Block) (start : Nat) (bytes : List UInt8) :
    Std.TreeMap Nat Block :=
  match bytes with
  | [] => blocks
  | byte :: rest =>
    let number := start / blockSize
    let room := blockSize - start % blockSize
    let block := (blocks.getD number .zero).overwrite (start % blockSize) ((byte :: rest).take room)
    put (blocks.insert number block) (start + room) ((byte :: rest).drop room)
termination_by bytes.length
decreasing_by
  have := Nat.mod_lt start (show 0 < blockSize by decide)
  simp only [List.length_drop, List.length_cons]
  omega

/-- Writes bytes from a position on. What lies between the old end and that position is zeros, and
where there is nothing to write the file stays as it is. -/
def write (contents : Contents) (start : Nat) (bytes : List UInt8) : Contents :=
  if bytes.isEmpty then contents
  else ⟨max contents.size (start + bytes.length), put contents.blocks start bytes⟩

/-- Writes one block. -/
def writeBlock (contents : Contents) (number : Nat) (block : Block) : Contents :=
  ⟨max contents.size ((number + 1) * blockSize), contents.blocks.insert number block⟩

/-- Cuts the file, or extends it with zeros. -/
def resize (contents : Contents) (size : Nat) : Contents :=
  let kept := contents.blocks.filter fun number _ => number * blockSize < size
  match kept[size / blockSize]? with
  | some block =>
    let rest := List.replicate (blockSize - size % blockSize) 0
    ⟨size, kept.insert (size / blockSize) (block.overwrite (size % blockSize) rest)⟩
  | none => ⟨size, kept⟩

/-- The contents of a file that holds the given bytes. -/
def ofBytes (bytes : List UInt8) : Contents := empty.write 0 bytes

/-- All bytes in order. -/
def toBytes (contents : Contents) : List UInt8 :=
  ((List.range ((contents.size + blockSize - 1) / blockSize)).flatMap fun number =>
    (contents.block number).toList).take contents.size

end Contents

end RowStore
