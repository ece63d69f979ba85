import RowStore.Proofs.Heap.Loading
import RowStore.Proofs.Heap.Rows
import RowStore.Proofs.Steps

/-!
Calls one after another on a heap: what holds of a heap and its disk whichever rows are stored and
deleted, and all that storing a list of rows can do.
-/

namespace RowStore.HeapFile

variable {heap middle next : HeapFile} {disk between after : Disk} {exception : Option Location}
  {rows : List Row}

/-- Heaps and disks that calls lead to. -/
inductive Calls (heap : HeapFile) (disk : Disk) : HeapFile → Disk → Prop where
  | none : Calls heap disk heap disk
  | insert (middle : HeapFile) (between : Disk) (row : Row) (answer : Except StorageError RowId)
      (next : HeapFile) (after : Disk) (calls : Calls heap disk middle between)
      (inserts : Inserts middle between row answer next after) : Calls heap disk next after
  | delete (middle : HeapFile) (between : Disk) (id : RowId) (answer : Except StorageError Bool)
      (next : HeapFile) (after : Disk) (calls : Calls heap disk middle between)
      (deletes : Deletes middle between id answer next after) : Calls heap disk next after

namespace Calls

theorem trans (first : Calls heap disk middle between) (second : Calls middle between next after) :
    Calls heap disk next after := by
  induction second with
  | none => exact first
  | insert reached left row answer next after _ inserts ih => exact .insert _ _ _ _ _ _ ih inserts
  | delete reached left id answer next after _ deletes ih => exact .delete _ _ _ _ _ _ ih deletes

theorem sound (sound : heap.Sound) (calls : Calls heap disk next after) : next.Sound := by
  induction calls with
  | none => exact sound
  | insert middle between row answer next after _ inserts ih => exact inserts.sound ih
  | delete middle between id answer next after _ deletes ih => exact deletes.sound ih

theorem schema_eq (calls : Calls heap disk next after) :
    next.schema = heap.schema := by
  induction calls with
  | none => rfl
  | insert middle between row answer next after calls inserts ih =>
    rw [← ih]
    cases inserts with
    | rejected => rfl
    | refused => rfl
    | stored bytes change encoded placed => exact placed.replaced.schema_eq
  | delete middle between id answer next after calls deletes ih =>
    rw [← ih]
    cases deletes with
    | absent => rfl
    | refused => rfl
    | deleted bytes change found erased => exact erased.replaced.schema_eq

theorem readable (sound : heap.Sound) (readable : heap.Readable)
    (calls : Calls heap disk next after) : next.Readable := by
  induction calls with
  | none => exact readable
  | insert middle between row answer next after calls inserts ih =>
    exact inserts.readable (calls.sound sound) ih
  | delete middle between id answer next after calls deletes ih =>
    exact deletes.readable (calls.sound sound) ih

theorem refuses_eq (calls : Calls heap disk next after) : after.refuses = disk.refuses := by
  induction calls with
  | none => rfl
  | insert middle between row answer next after _ inserts ih => rw [inserts.refuses_eq, ih]
  | delete middle between id answer next after _ deletes ih => rw [deletes.refuses_eq, ih]

theorem intact (intact : disk.Intact) (calls : Calls heap disk next after) : after.Intact := by
  induction calls with
  | none => exact intact
  | insert middle between row answer next after _ inserts ih => exact inserts.intact ih
  | delete middle between id answer next after _ deletes ih => exact deletes.intact ih

theorem pagesSound (sound : heap.Sound) (pagesSound : disk.PagesSound exception)
    (calls : Calls heap disk next after) : after.PagesSound exception := by
  induction calls with
  | none => exact pagesSound
  | insert middle between row answer next after calls inserts ih =>
    exact inserts.pagesSound (calls.sound sound) ih
  | delete middle between id answer next after calls deletes ih =>
    exact deletes.pagesSound (calls.sound sound) ih

/-- A list of steps that are calls each are calls together. -/
theorem forM {Item : Type} {act : Item → Step (HeapFile × Disk) StorageError PUnit}
    (sound : heap.Sound) (disk : Disk) (items : List Item)
    (each : ∀ item (heap : HeapFile) disk, heap.Sound →
      Calls heap disk ((act item).runOn (heap, disk)).2.1 ((act item).runOn (heap, disk)).2.2) :
    Calls heap disk ((items.forM act).runOn (heap, disk)).2.1
      ((items.forM act).runOn (heap, disk)).2.2 := by
  induction items generalizing heap disk with
  | nil => exact .none
  | cons item rest ih =>
    rw [Step.runOn_forM_cons]
    have first := each item heap disk sound
    generalize (act item).runOn (heap, disk) = outcome at first
    obtain ⟨result, middle, between⟩ := outcome
    cases result with
    | error error => exact first
    | ok _ => exact first.trans (ih (first.sound sound) between)

theorem mapM {Item Answer : Type} {act : Item → Step (HeapFile × Disk) StorageError Answer}
    (sound : heap.Sound) (disk : Disk) (items : List Item)
    (each : ∀ item (heap : HeapFile) disk, heap.Sound →
      Calls heap disk ((act item).runOn (heap, disk)).2.1 ((act item).runOn (heap, disk)).2.2) :
    Calls heap disk ((items.mapM act).runOn (heap, disk)).2.1
      ((items.mapM act).runOn (heap, disk)).2.2 := by
  induction items generalizing heap disk with
  | nil => exact .none
  | cons item rest ih =>
    rw [Step.runOn_mapM_cons]
    have first := each item heap disk sound
    generalize (act item).runOn (heap, disk) = outcome at first
    obtain ⟨result, middle, between⟩ := outcome
    cases result with
    | error error => exact first
    | ok _ => exact first.trans (ih (first.sound sound) between)

end Calls

theorem calls_insert (sound : heap.Sound) (disk : Disk) (row : Row) :
    Calls heap disk ((discard (insert row)).runOn (heap, disk)).2.1
      ((discard (insert row)).runOn (heap, disk)).2.2 := by
  rw [Step.runOn_discard]
  exact .insert _ _ _ _ _ _ .none (sound.inserts disk row)

theorem calls_delete (sound : heap.Sound) (disk : Disk) (id : RowId) :
    Calls heap disk ((delete id).runOn (heap, disk)).2.1 ((delete id).runOn (heap, disk)).2.2 :=
  .delete _ _ _ _ _ _ .none (sound.deletes disk id)

/-- A row exchanged for another: deleted at its address, and stored as it is then. -/
theorem calls_exchange (sound : heap.Sound) (disk : Disk) (id : RowId) (row : Row) :
    Calls heap disk
      ((do discard (delete id); discard (insert row) : Step _ _ _).runOn (heap, disk)).2.1
      ((do discard (delete id); discard (insert row) : Step _ _ _).runOn (heap, disk)).2.2 := by
  have first := calls_delete sound disk id
  simp only [Step.runOn_bind, Step.runOn_discard]
  generalize (delete id).runOn (heap, disk) = outcome at first
  obtain ⟨answer, middle, between⟩ := outcome
  cases answer with
  | error error => exact first
  | ok _ =>
    have second := calls_insert (first.sound sound) between row
    rw [Step.runOn_discard] at second
    exact first.trans second

end RowStore.HeapFile
