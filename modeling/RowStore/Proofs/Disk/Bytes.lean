import RowStore.Disk.Contents
import RowStore.Proofs.Bytes.Slice

/-!
The bytes of a file one by one. Written bytes stand where they were written, across the blocks they
fall into, so a file of given bytes is read as these bytes.
-/

namespace RowStore.Contents

/-- The byte of blocks at a position. -/
def byteAt? (blocks : Std.TreeMap Nat Block) (position : Nat) : Option UInt8 :=
  (blocks.getD (position / blockSize) .zero).toArray[position % blockSize]?

theorem getElem?_flatMap_range (read : Nat → List UInt8) (size count position : Nat)
    (positive : 0 < size) (sized : ∀ number, (read number).length = size) :
    ((List.range count).flatMap read)[position]? =
      if position / size < count then (read (position / size))[position % size]? else none := by
  induction count with
  | zero => simp
  | succ count ih =>
    have length_eq : ((List.range count).flatMap read).length = count * size := by
      simp [List.length_flatMap, sized]
    rw [List.range_succ, List.flatMap_append, List.flatMap_singleton]
    by_cases before : position < count * size
    · rw [List.getElem?_append_left (by rw [length_eq]; exact before), ih]
      have inside : position / size < count := (Nat.div_lt_iff_lt_mul positive).mpr before
      rw [if_pos inside, if_pos (Nat.lt_succ_of_lt inside)]
    · rw [List.getElem?_append_right (by rw [length_eq]; exact Nat.le_of_not_lt before), length_eq]
      by_cases last : position < (count + 1) * size
      · have number : position / size = count := by
          rw [Nat.div_eq_iff positive]
          rw [Nat.succ_mul] at last
          omega
        have offset : position - count * size = position % size := by
          rw [← number, Nat.mod_eq_sub_mul_div, Nat.mul_comm]
        rw [number, if_pos (Nat.lt_succ_self _), offset]
      · have outside : ¬ position / size < count + 1 := by
          rw [Nat.div_lt_iff_lt_mul positive]
          exact last
        rw [if_neg outside, List.getElem?_eq_none]
        rw [sized]
        rw [Nat.succ_mul] at last
        omega

theorem getElem?_toBytes (contents : Contents) (position : Nat) :
    contents.toBytes[position]? =
      if position < contents.size then byteAt? contents.blocks position else none := by
  rw [toBytes, List.getElem?_take]
  split
  · rename_i inside
    rw [getElem?_flatMap_range _ blockSize _ _ (by decide) fun number => Vector.length_toList]
    rw [if_pos]
    · rw [Vector.getElem?_toList, byteAt?, Vector.getElem?_toArray]
      rfl
    · simp only [blockSize] at inside ⊢
      omega
  · rfl

theorem byteAt?_insert (blocks : Std.TreeMap Nat Block) (number : Nat) (block : Block)
    (position : Nat) :
    byteAt? (blocks.insert number block) position =
      if position / blockSize = number then block.toArray[position % blockSize]?
      else byteAt? blocks position := by
  rw [byteAt?, Std.TreeMap.getD_insert]
  simp only [Std.compare_eq_iff_eq, eq_comm (a := number)]
  split <;> rfl

theorem getElem?_overwriteBlock (block : Block) (start : Nat) (bytes : List UInt8) (offset : Nat)
    (inside : offset < blockSize) :
    (block.overwrite start bytes).toArray[offset]? =
      if start ≤ offset ∧ offset < start + bytes.length then bytes[offset - start]?
      else block.toArray[offset]? := by
  have size_eq : block.toArray.size = blockSize := block.size_toArray
  rw [Block.overwrite, Bytes.getElem?_overwrite, size_eq]
  simp only [inside, true_and]

/-- Bytes that are put into blocks stand there one after another, and no other byte has changed. -/
theorem byteAt?_put (blocks : Std.TreeMap Nat Block) (start : Nat) (bytes : List UInt8)
    (position : Nat) :
    byteAt? (put blocks start bytes) position =
      if start ≤ position ∧ position < start + bytes.length then bytes[position - start]?
      else byteAt? blocks position := by
  induction blocks, start, bytes using put.induct with
  | case1 blocks start =>
    rw [put, if_neg]
    simp only [List.length_nil]
    omega
  | case2 blocks start byte rest number room block ih =>
    simp only [number, room, block] at ih
    rw [put, ih, byteAt?_insert, getElem?_overwriteBlock _ _ _ _ (Nat.mod_lt _ (by decide)), byteAt?]
    clear ih block
    generalize byte :: rest = bytes
    simp only [List.length_drop, List.length_take, List.getElem?_drop, List.getElem?_take]
    -- with the size of a block as a numeral the rest is linear arithmetic
    simp only [show blockSize = 4096 from rfl]
    by_cases later : start + (4096 - start % 4096) ≤ position ∧
        position < start + (4096 - start % 4096) +
          (bytes.length - (4096 - start % 4096))
    · rw [if_pos later, if_pos (by omega)]
      congr 1
      omega
    · rw [if_neg later]
      by_cases same : position / 4096 = start / 4096
      · rw [if_pos same, same]
        by_cases hit : start % 4096 ≤ position % 4096 ∧
            position % 4096 < start % 4096 +
              min (4096 - start % 4096) bytes.length
        · rw [if_pos hit, if_pos (by omega), if_pos (by omega)]
          congr 1
          omega
        · rw [if_neg hit, if_neg (by omega)]
      · rw [if_neg same, if_neg (by omega)]

/-- A file of given bytes is read as these bytes. -/
theorem toBytes_ofBytes (bytes : List UInt8) : (ofBytes bytes).toBytes = bytes := by
  cases bytes with
  | nil => rfl
  | cons byte rest =>
    have written : ofBytes (byte :: rest) = ⟨(byte :: rest).length, put {} 0 (byte :: rest)⟩ := by
      rw [ofBytes, write, if_neg (by simp), empty, Nat.zero_add, Nat.max_eq_right (Nat.zero_le _)]
    apply List.ext_getElem?
    intro position
    rw [getElem?_toBytes, written]
    simp only
    split
    · rename_i inside
      rw [byteAt?_put, if_pos ⟨Nat.zero_le _, by omega⟩, Nat.sub_zero]
    · rename_i outside
      rw [List.getElem?_eq_none (Nat.le_of_not_lt outside)]

end RowStore.Contents
