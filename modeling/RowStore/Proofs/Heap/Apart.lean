import RowStore.Proofs.Disk.Directory
import RowStore.Proofs.Heap.Calls
import RowStore.Proofs.Heap.Mirror

/-!
Heaps beside each other. Calls on one heap change the contents of its own file and nothing else of the
disk, so every other heap stays the mirror of its file.
-/

namespace RowStore

namespace HeapFile

variable {heap next : HeapFile} {disk after : Disk} {file : PageFile} {row : Row} {id : RowId}

theorem onlyFile_afterRefusal (file : Nat) (disk : Disk) :
    Disk.OnlyFile file disk (afterRefusal disk) := ⟨fun _ => rfl, rfl, fun _ _ => rfl⟩

theorem onlyFile_afterWrite (backing : heap.backing = some file) (number : Nat) (page : Page) :
    Disk.OnlyFile file.file disk (afterWrite heap number page disk) := by
  rw [afterWrite, backing]
  exact (onlyFile_afterRefusal file.file disk).trans (Disk.onlyFile_modifyContents _ _ _)

namespace Mirrors

/-- A heap stays the mirror of its file on a disk that spares it. -/
theorem spared (mirrors : Mirrors heap file disk)
    (spares : Disk.Spares (Disk.locate file.path) file.file disk after) : Mirrors heap file after := by
  have backed := mirrors.backed.spared spares
  refine ⟨mirrors.sound, mirrors.backing_eq, backed.holds, backed.known, ?_, backed.block_eq⟩
  rw [spares.contents_eq mirrors.known, mirrors.size_eq]

theorem onlyFile_inserts {answer : Except StorageError RowId} (mirrors : Mirrors heap file disk)
    (inserts : Inserts heap disk row answer next after) : Disk.OnlyFile file.file disk after := by
  cases inserts with
  | rejected => exact .refl _ _
  | refused => exact onlyFile_afterRefusal _ _
  | stored => exact onlyFile_afterWrite mirrors.backing_eq _ _

theorem onlyFile_deletes {answer : Except StorageError Bool} (mirrors : Mirrors heap file disk)
    (deletes : Deletes heap disk id answer next after) : Disk.OnlyFile file.file disk after := by
  cases deletes with
  | absent => exact .refl _ _
  | refused => exact onlyFile_afterRefusal _ _
  | deleted => exact onlyFile_afterWrite mirrors.backing_eq _ _

/-- Whatever calls are made on a heap, it stays the mirror of its file, and nothing else of the disk
has changed. -/
theorem calls (mirrors : Mirrors heap file disk) (calls : Calls heap disk next after) :
    Mirrors next file after ∧ Disk.OnlyFile file.file disk after := by
  induction calls with
  | none => exact ⟨mirrors, .refl _ _⟩
  | insert middle between row answer next after _ inserts ih =>
    exact ⟨ih.1.inserts inserts, ih.2.trans (ih.1.onlyFile_inserts inserts)⟩
  | delete middle between id answer next after _ deletes ih =>
    exact ⟨ih.1.deletes deletes, ih.2.trans (ih.1.onlyFile_deletes deletes)⟩

end Mirrors

end HeapFile

end RowStore
