import RowStore.Heap.Basic

/-!
The rows of a heap file, page by page and slot by slot. Rows are read in that order up to the first
one that cannot be read.
-/

namespace RowStore.HeapFile

/-- The bytes of a page's rows, each with its address. -/
def pageEntries (number : Nat) (page : Page) : List (RowId × List UInt8) :=
  page.liveSlots.filterMap fun slot => (page.get? slot).map fun bytes => (⟨number, slot⟩, bytes)

/-- The bytes of all rows, each with its address. -/
def entries (heap : HeapFile) : List (RowId × List UInt8) :=
  heap.pages.zipIdx.flatMap fun (page, number) => pageEntries number page

/-- The row that bytes spell in the heap's schema. -/
def decode (heap : HeapFile) (bytes : List UInt8) : Except StorageError Row :=
  (Row.decode heap.schema bytes).mapError .row

/-- The row at an address, if there is one. -/
def get? (heap : HeapFile) (id : RowId) : Except StorageError (Option Row) :=
  match heap.pages[id.page]?.bind fun page => page.get? id.slot with
  | some bytes => do return some (← heap.decode bytes)
  | none => .ok none

/-- All rows with their addresses. -/
def scanWithIds (heap : HeapFile) : Except StorageError (List (RowId × Row)) :=
  heap.entries.mapM fun (id, bytes) => do return (id, ← heap.decode bytes)

/-- All rows. -/
def scan (heap : HeapFile) : Except StorageError (List Row) :=
  heap.entries.mapM fun (_, bytes) => heap.decode bytes

/-- The rows that a test accepts, with their addresses. A row is read and tested before the next
one is read. -/
def scanWhere {Error : Type} (heap : HeapFile) (wrap : StorageError → Error)
    (test : Row → Except Error Bool) : Except Error (List (RowId × Row)) := do
  let rows ← heap.entries.mapM fun (id, bytes) => do
    let row ← (heap.decode bytes).mapError wrap
    return ((id, row), ← test row)
  return (rows.filter (·.2)).map (·.1)

end RowStore.HeapFile
