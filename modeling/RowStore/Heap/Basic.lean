import RowStore.Heap.Error
import RowStore.Disk.PageFile
import RowStore.FreeSpace

/-!
Heap files: the pages of one table. All pages are held in memory, and a page that changes is
written to the file behind them before the change counts. A heap without a file lives in memory
only.
-/

namespace RowStore

/-- The pages of a table, the free space of each, and the file behind them. -/
structure HeapFile where
  schema : Schema
  pages : List Page
  freeSpace : FreeSpaceMap
  backing : Option PageFile

namespace HeapFile

/-- A heap without pages and without a file. -/
def inMemory (schema : Schema) : HeapFile := ⟨schema, [], .empty, none⟩

/-- An empty heap in a new file at a path. -/
def createAt (schema : Schema) (path : String) : Step Disk StorageError HeapFile := do
  let file ← (PageFile.createAt path).mapError .disk
  return ⟨schema, [], .empty, some file⟩

/-- Reads a page of a file, which must carry its own number. -/
def loadPage (file : PageFile) (disk : Disk) (number : Nat) : Except StorageError Page := do
  let block ← (file.readPage disk number).mapError .disk
  let page ← (Page.ofBlock block).mapError .block
  if page.number ≠ number then throw (.block (.corrupt number (.otherNumber page.number)))
  return page

/-- Reads pages of a file from a number on, up to the first that is none. -/
def loadPages (file : PageFile) (disk : Disk) (number : Nat) :
    (count : Nat) → Except StorageError (List Page)
  | 0 => .ok []
  | count + 1 => do
    let page ← loadPage file disk number
    return page :: (← loadPages file disk (number + 1) count)

/-- A heap with the given pages, whose free space is read off their heads. -/
def ofPages (schema : Schema) (pages : List Page) (backing : Option PageFile) : HeapFile :=
  ⟨schema, pages, ⟨pages.map Page.freeSpace⟩, backing⟩

/-- The heap in the file at a path. -/
def openAt (schema : Schema) (path : String) : Step Disk StorageError HeapFile := do
  let file ← (PageFile.openAt path).mapError .disk
  let disk ← get
  let pages ← Step.ofExcept (loadPages file disk 0 (file.pageCount disk))
  return ofPages schema pages (some file)

/-- The bytes of a row, if a page can hold them. -/
def encode (heap : HeapFile) (row : Row) : Except StorageError (List UInt8) := do
  let bytes ← (row.encode heap.schema).mapError .mismatch
  if maxRowSize < bytes.length then throw (.rowTooLarge bytes.length)
  return bytes

/-- Whether a row would be taken, on whatever page it came to lie. -/
def checkInsertable (heap : HeapFile) (row : Row) : Except StorageError Unit := do
  let _ ← heap.encode row

/-- A heap with one page changed, and what the change answers. -/
structure Change (Answer : Type) where
  heap : HeapFile
  page : Nat
  answer : Answer

/-- The heap with another page in the place of one it has. -/
def setPage (heap : HeapFile) (number : Nat) (page : Page) : HeapFile :=
  { heap with
    pages := heap.pages.set number page
    freeSpace := heap.freeSpace.update number page.freeSpace }

/-- The heap with one more page. -/
def addPage (heap : HeapFile) (page : Page) : HeapFile :=
  { heap with
    pages := heap.pages ++ [page]
    freeSpace := heap.freeSpace.add heap.pages.length page.freeSpace }

/-- Puts bytes on a new page at the end. -/
def placeOnNewPage (heap : HeapFile) (bytes : List UInt8) : Except StorageError (Change RowId) :=
  let number := heap.pages.length
  match (Page.empty number).insert? bytes with
  | some (page, slot) => .ok ⟨heap.addPage page, number, ⟨number, slot⟩⟩
  | none => .error (.rowTooLarge bytes.length)

/-- Puts bytes on the first page with room for them and a slot, or on a new page. A page that has
less room than the map says is entered anew and passed over. -/
def place (heap : HeapFile) (bytes : List UInt8) : Except StorageError (Change RowId) :=
  match heap.freeSpace.find? (bytes.length + slotSize) with
  | none => heap.placeOnNewPage bytes
  | some number =>
    match heap.pages[number]? with
    | none => heap.placeOnNewPage bytes
    | some page =>
      match page.insert? bytes with
      | some (page, slot) => .ok ⟨heap.setPage number page, number, ⟨number, slot⟩⟩
      | none => (heap.setPage number page).placeOnNewPage bytes

/-- Writes the changed page to the file. The change counts only once the page is written. -/
def commit {Answer : Type} (change : Change Answer) : Step (HeapFile × Disk) StorageError Answer := do
  if let some file := change.heap.backing then
    if let some page := change.heap.pages[change.page]? then
      ((file.writePage change.page page.block).mapError .disk).onSecond
  modify fun (_, disk) => (change.heap, disk)
  return change.answer

/-- Stores a row and answers where it lies. -/
def insert (row : Row) : Step (HeapFile × Disk) StorageError RowId := do
  let heap := (← get).1
  let bytes ← Step.ofExcept (heap.encode row)
  commit (← Step.ofExcept (heap.place bytes))

/-- Deletes the row at an address, and answers whether there was one. -/
def delete (id : RowId) : Step (HeapFile × Disk) StorageError Bool := do
  let heap := (← get).1
  match heap.pages[id.page]?.bind fun page => page.delete? id.slot with
  | some page => commit ⟨heap.setPage id.page page, id.page, true⟩
  | none => return false

/-- Removes all rows and the file behind them. The rows are gone even if the file cannot be
removed, and the heap then has no file any more. -/
def destroy : Step (HeapFile × Disk) StorageError Unit := do
  let heap := (← get).1
  modify fun (_, disk) => (inMemory heap.schema, disk)
  if let some file := heap.backing then (file.delete.mapError .disk).onSecond

end HeapFile

end RowStore
