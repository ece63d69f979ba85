import RowStore.Proofs.Heap.Apart
import RowStore.Proofs.Steps

/-!
What no call on a heap changes, whatever pages the heap has and whatever the disk does: its schema, the
file behind it, and all of the disk but the contents of that file, which follow the pages.
-/

namespace RowStore.HeapFile

open Disk (OnlyFile)

variable {heap : HeapFile} {disk : Disk}

/-- Placing bytes changes neither the schema of a heap nor the file behind it. -/
theorem kept_of_placeOnNewPage {bytes : List UInt8} {change : Change RowId}
    (placed : heap.placeOnNewPage bytes = .ok change) :
    change.heap.schema = heap.schema ∧ change.heap.backing = heap.backing := by
  unfold placeOnNewPage at placed
  dsimp only at placed
  split at placed
  · cases placed
    exact ⟨rfl, rfl⟩
  · cases placed

theorem kept_of_place {bytes : List UInt8} {change : Change RowId}
    (placed : heap.place bytes = .ok change) :
    change.heap.schema = heap.schema ∧ change.heap.backing = heap.backing := by
  rw [place] at placed
  cases found : heap.freeSpace.find? (bytes.length + slotSize) with
  | none =>
    rw [found] at placed
    exact kept_of_placeOnNewPage placed
  | some number =>
    simp only [found] at placed
    cases present : heap.pages[number]? with
    | none =>
      rw [present] at placed
      exact kept_of_placeOnNewPage placed
    | some page =>
      simp only [present] at placed
      cases taken : page.insert? bytes with
      | none =>
        rw [taken] at placed
        have kept := kept_of_placeOnNewPage placed
        exact kept
      | some result =>
        rw [taken] at placed
        cases placed
        exact ⟨rfl, rfl⟩

theorem onlyFile_writePage (file : PageFile) (number : Nat) (block : Block) (disk : Disk) :
    OnlyFile file.file disk ((file.writePage number block).runOn disk).2 := by
  rw [runOn_writePage]
  split
  · exact onlyFile_afterRefusal file.file disk
  · exact (onlyFile_afterRefusal file.file disk).trans (Disk.onlyFile_modifyContents _ _ _)

/-- What calls may change on the disk of a heap: the contents of the file behind it, if there is one. -/
def Confined (backing : Option PageFile) (disk after : Disk) : Prop :=
  match backing with
  | none => after = disk
  | some file => OnlyFile file.file disk after

theorem Confined.refl (backing : Option PageFile) (disk : Disk) : Confined backing disk disk := by
  cases backing with
  | none => rfl
  | some file => exact OnlyFile.refl _ _

theorem Confined.trans {backing : Option PageFile} {middle after : Disk}
    (first : Confined backing disk middle) (second : Confined backing middle after) :
    Confined backing disk after := by
  cases backing with
  | none => exact Eq.trans second first
  | some file => exact OnlyFile.trans first second

/-- A change is taken over or not, and writes nothing but the file behind the heap. -/
theorem runOn_commit_kept {Answer : Type} {change : Change Answer} (disk : Disk)
    (same : change.heap.backing = heap.backing) :
    (((commit change).runOn (heap, disk)).2.1 = heap ∨
        ((commit change).runOn (heap, disk)).2.1 = change.heap) ∧
      Confined heap.backing disk ((commit change).runOn (heap, disk)).2.2 := by
  rw [commit, same]
  cases heap.backing with
  | none => exact ⟨.inr rfl, rfl⟩
  | some file =>
    cases change.heap.pages[change.page]? with
    | none => exact ⟨.inr rfl, OnlyFile.refl _ _⟩
    | some page =>
      have onlyFile := onlyFile_writePage file change.page page.block disk
      simp only [Step.runOn_bind, Step.runOn_onSecond, Step.runOn_mapError]
      generalize (file.writePage change.page page.block).runOn disk = outcome at onlyFile
      obtain ⟨result, after⟩ := outcome
      cases result with
      | error error => exact ⟨.inl rfl, onlyFile⟩
      | ok _ => exact ⟨.inr rfl, onlyFile⟩

/-- A change that is about the file of a heap, and exchanges one page or adds one if the heap is in
order. -/
structure Revises {Answer : Type} (heap : HeapFile) (change : Change Answer) : Prop where
  schema_eq : change.heap.schema = heap.schema
  backing_eq : change.heap.backing = heap.backing
  replaced : heap.Ordered → ∃ page, Replaced heap change.page page change.heap ∧ change.heap.Ordered

theorem revises_of_place {bytes : List UInt8} {change : Change RowId} (fits : bytes.length ≤ maxRowSize)
    (placed : heap.place bytes = .ok change) : Revises heap change := by
  obtain ⟨schema_eq, backing_eq⟩ := kept_of_place placed
  refine ⟨schema_eq, backing_eq, fun ordered => ?_⟩
  obtain ⟨_, found, _, placed'⟩ := exists_place ordered fits
  cases placed.symm.trans found
  exact ⟨_, placed'.replaced, placed'.replaced.ordered ordered
    (placed'.inserted.inOrder (ordered.pageAt_inOrder _)) placed'.inserted.number_eq⟩

theorem revises_of_delete? {id : RowId} {page : Page}
    (removed : (heap.pages[id.page]?.bind fun page => page.delete? id.slot) = some page) :
    Revises heap (⟨heap.setPage id.page page, id.page, true⟩ : Change Bool) := by
  refine ⟨rfl, rfl, fun ordered => ?_⟩
  have erased := erased_of_delete? ordered removed
  exact ⟨_, erased.replaced, erased.replaced.ordered ordered
    (erased.deleted.inOrder (ordered.pageAt_inOrder _)) erased.deleted.number_eq⟩

theorem Backed.afterRefusal {file : PageFile} (backed : Backed heap file disk) :
    Backed heap file (afterRefusal disk) := backed.spared ⟨fun _ => id, id, id, fun _ => rfl⟩

/-- The file of a heap follows a change that counts, and stays as it is where it does not. -/
theorem Backed.commit {Answer : Type} {change : Change Answer} {file : PageFile}
    (backed : Backed heap file disk) (revises : Revises heap change) :
    Backed ((HeapFile.commit change).runOn (heap, disk)).2.1 file
      ((HeapFile.commit change).runOn (heap, disk)).2.2 := by
  obtain ⟨page, replaced, ordered⟩ := revises.replaced backed.ordered
  rcases runOn_commit disk revises.backing_eq replaced.page_new with ⟨_, result⟩ | ⟨_, result⟩
  · rw [result]
    exact backed.afterRefusal
  · rw [result]
    exact backed.afterWrite replaced ordered

/-- A heap and its disk, and what calls may make of them: the heap has its schema and its file, that file
goes on to hold its pages, and nothing else of the disk has changed. -/
structure StaysInFile (state after : HeapFile × Disk) : Prop where
  schema_eq : after.1.schema = state.1.schema
  backing_eq : after.1.backing = state.1.backing
  confined : Confined state.1.backing state.2 after.2
  backed : ∀ file, Backed state.1 file state.2 → Backed after.1 file after.2

instance : Std.Refl StaysInFile := ⟨fun _ => ⟨rfl, rfl, .refl _ _, fun _ => id⟩⟩

instance : IsTrans (HeapFile × Disk) StaysInFile := by
  refine ⟨fun state middle after first second => ?_⟩
  have confined := second.confined
  rw [first.backing_eq] at confined
  exact ⟨second.schema_eq.trans first.schema_eq, second.backing_eq.trans first.backing_eq,
    first.confined.trans confined, fun file => second.backed file ∘ first.backed file⟩

theorem staysInFile_commit {Answer : Type} {change : Change Answer} (disk : Disk)
    (revises : Revises heap change) :
    StaysInFile (heap, disk) ((commit change).runOn (heap, disk)).2 := by
  obtain ⟨either, confined⟩ := runOn_commit_kept disk revises.backing_eq
  have backed (file : PageFile) (backed : Backed heap file disk) := backed.commit revises
  rcases either with kept | changed
  · exact ⟨congrArg schema kept, congrArg backing kept, confined, backed⟩
  · exact ⟨(congrArg schema changed).trans revises.schema_eq,
      (congrArg backing changed).trans revises.backing_eq, confined, backed⟩

theorem respects_insert (row : Row) : Step.Respects StaysInFile (insert row) := by
  rintro ⟨heap, disk⟩
  rw [insert]
  simp only [Step.runOn_bind, Step.runOn_get, Step.runOn_ofExcept]
  cases encoded : heap.encode row with
  | error error => exact Std.Refl.refl _
  | ok bytes =>
    simp only
    cases placed : heap.place bytes with
    | error error => exact Std.Refl.refl _
    | ok change =>
      have fits := ((encode_eq_ok_iff _ _ _).mp encoded).2
      exact staysInFile_commit disk (revises_of_place fits placed)

theorem respects_delete (id : RowId) : Step.Respects StaysInFile (delete id) := by
  rintro ⟨heap, disk⟩
  rw [delete]
  simp only [Step.runOn_bind, Step.runOn_get]
  cases removed : heap.pages[id.page]?.bind fun page => page.delete? id.slot with
  | none => exact Std.Refl.refl _
  | some page => exact staysInFile_commit disk (revises_of_delete? removed)

theorem respects_exchange (id : RowId) (row : Row) :
    Step.Respects StaysInFile (do
      discard (delete id)
      discard (insert row)) :=
  (respects_delete id).discard.bind fun _ => (respects_insert row).discard

end RowStore.HeapFile
