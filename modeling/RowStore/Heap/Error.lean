import RowStore.Disk.Basic
import RowStore.Page.Slots
import RowStore.Row.Codec

/-!
Why stored rows cannot be read or written.
-/

namespace RowStore

/-- A failure of the store of rows. -/
inductive StorageError where
  | disk (fault : DiskFault)
  | block (fault : BlockFault)
  | row (fault : RowFault)
  | mismatch (cause : RowMismatch)
  | rowTooLarge (size : Nat)
  | heapExists (table : String)
  | heapMissing (table : String)
  deriving DecidableEq, Repr

def StorageError.message : StorageError → String
  | disk _ => "io error"
  | block fault => fault.message
  | row fault => s!"corrupt tuple: {fault.message}"
  | mismatch cause => cause.message
  | rowTooLarge size =>
    s!"tuple of {size} bytes does not fit into an empty page (max {maxRowSize})"
  | heapExists table => s!"heap file already exists for table: {table}"
  | heapMissing table => s!"no heap file for table: {table}"

end RowStore
