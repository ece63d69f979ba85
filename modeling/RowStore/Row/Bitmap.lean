/-!
Null bitmaps: one bit a column, eight columns a byte, the first column in the lowest bit. A set bit
marks a column whose value is `NULL`.
-/

namespace RowStore

/-- The columns of a row that are `NULL`. -/
structure NullBitmap where
  columns : Nat
  bytes : List UInt8
  deriving DecidableEq, Repr

namespace NullBitmap

/-- The bytes that hold one bit a column. -/
def width (columns : Nat) : Nat := (columns + 7) / 8

/-- A bitmap in which no column is `NULL`. -/
def empty (columns : Nat) : NullBitmap := ⟨columns, List.replicate (width columns) 0⟩

/-- A byte with one more bit set. -/
def setBit (byte : UInt8) (bit : Nat) : UInt8 := UInt8.ofNat (byte.toNat ||| 1 <<< bit)

/-- Marks a column as `NULL`. -/
def insert (bitmap : NullBitmap) (column : Nat) : NullBitmap :=
  { bitmap with bytes := bitmap.bytes.modify (column / 8) (setBit · (column % 8)) }

/-- Whether a column is marked. -/
def contains (bitmap : NullBitmap) (column : Nat) : Bool :=
  (bitmap.bytes.getD (column / 8) 0).toNat.testBit (column % 8)

/-- A bitmap with the given columns marked. -/
def ofColumns (columns : Nat) (marked : List Nat) : NullBitmap := marked.foldl insert (empty columns)

/-- The marked columns in order. -/
def toColumns (bitmap : NullBitmap) : List Nat := (List.range bitmap.columns).filter bitmap.contains

@[simp]
theorem length_bytes_insert (bitmap : NullBitmap) (column : Nat) :
    (bitmap.insert column).bytes.length = bitmap.bytes.length := by
  simp [insert]

@[simp]
theorem columns_insert (bitmap : NullBitmap) (column : Nat) :
    (bitmap.insert column).columns = bitmap.columns := rfl

end NullBitmap

end RowStore
