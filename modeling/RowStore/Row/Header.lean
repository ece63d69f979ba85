import RowStore.Row.Bitmap
import RowStore.Bytes.BigEndian
import RowStore.Text.Utf8

/-!
The head of a stored row: the size of the whole row as four bytes, then its null bitmap. A reader
does not rely on the size.
-/

namespace RowStore

/-- Why bytes cannot be read as a row. -/
inductive RowFault where
  | headerTooShort (needed actual : Nat)
  | pastEnd (count offset size : Nat)
  | badText (column : String) (fault : Text.Utf8.Fault)
  deriving DecidableEq, Repr

def RowFault.message : RowFault → String
  | headerTooShort needed actual => s!"header needs {needed} bytes, tuple has {actual}"
  | pastEnd count offset size => s!"read of {count} bytes at offset {offset} past end ({size})"
  | badText column fault => s!"column '{column}': {fault.message}"

/-- The head of a stored row. -/
structure RowHeader where
  size : UInt32
  nulls : NullBitmap
  deriving DecidableEq, Repr

namespace RowHeader

/-- The bytes that the head of a row takes. -/
def width (columns : Nat) : Nat := 4 + NullBitmap.width columns

/-- A head as it is stored. -/
def bytes (header : RowHeader) : List UInt8 := Bytes.ofWord header.size ++ header.nulls.bytes

/-- Reads the head of a row with the given number of columns. -/
def read (columns : Nat) (bytes : List UInt8) : Except RowFault RowHeader :=
  if bytes.length < width columns then .error (.headerTooShort (width columns) bytes.length)
  else .ok ⟨Bytes.word (bytes.take 4), columns, (bytes.drop 4).take (NullBitmap.width columns)⟩

end RowHeader

end RowStore
