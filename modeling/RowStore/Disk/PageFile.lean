import RowStore.Disk.Files
import RowStore.Page.Basic

/-!
Files of pages: page after page without anything between, found by its number. A file may end in
the middle of a page, which then does not count.
-/

namespace RowStore

/-- An open file of pages. -/
structure PageFile where
  path : String
  file : Nat
  deriving DecidableEq, Repr

namespace PageFile

/-- Opens the file at a path with the pages it has, or creates it. -/
def openAt (path : String) : Step Disk DiskFault PageFile := do
  return ⟨path, ← Disk.openFile path false⟩

/-- Creates an empty file at a path, in place of the pages a file there has. -/
def createAt (path : String) : Step Disk DiskFault PageFile := do
  return ⟨path, ← Disk.openFile path true⟩

/-- The number of whole pages, in 32 bits. -/
def pageCount (pages : PageFile) (disk : Disk) : Nat :=
  ((disk.contents pages.file).size / blockSize) % UInt32.size

/-- The block of a page. -/
def readPage (pages : PageFile) (disk : Disk) (page : Nat) : Except DiskFault Block :=
  let contents := disk.contents pages.file
  if (page + 1) * blockSize ≤ contents.size then .ok (contents.block page) else .error .shortRead

/-- Writes the block of a page. Pages between the end of the file and this one become zeros. -/
def writePage (pages : PageFile) (page : Nat) (block : Block) : Step Disk DiskFault Unit :=
  Disk.writeBlock pages.file page block

/-- Removes the file. It is no fault if there is none at its path any more. -/
def delete (pages : PageFile) : Step Disk DiskFault Unit := do
  match (Disk.removeFile pages.path).runOn (← get) with
  | (.ok (), disk) => set disk
  | (.error .missing, _) => return
  | (.error fault, _) => throw fault

end PageFile

end RowStore
