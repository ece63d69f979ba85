import RowStore.Proofs.Heap.Sweeping
import RowStore.Proofs.Sustaining

/-!
Properties of heaps that last: a new heap has them, and no call takes them away, whatever becomes of the
disk. That pages are in order lasts, and so does that a heap is sound and all its rows can be read.
-/

namespace RowStore.HeapFile

open Step (Sustains)

variable {heap : HeapFile} {disk : Disk} {row : Row}

/-- A property of every heap that has come about by calls on a new one. -/
structure Lasting (holds : HeapFile → Prop) : Prop where
  empty : ∀ schema backing, holds ⟨schema, [], .empty, backing⟩
  insert : ∀ row, Sustains (fun state : HeapFile × Disk => holds state.1) (fun _ => True) (insert row)
  delete : ∀ id, Sustains (fun state : HeapFile × Disk => holds state.1) (fun _ => True) (delete id)

/-- A heap of pages in order that has come from another one by a call: the schema is the same, and every
slot that was given out still is. -/
structure Continues (heap next : HeapFile) : Prop where
  ordered : next.Ordered
  schema_eq : next.schema = heap.schema
  slots : ∀ id, heap.HasSlot id → next.HasSlot id

theorem Ordered.continues (ordered : heap.Ordered) : Continues heap heap := ⟨ordered, rfl, fun _ => id⟩

theorem Placed.continues {bytes : List UInt8} {change : Change RowId} (ordered : heap.Ordered)
    (placed : Placed heap bytes change) : Continues heap change.heap := by
  refine ⟨placed.replaced.ordered ordered (placed.inserted.inOrder (ordered.pageAt_inOrder _))
    placed.inserted.number_eq, placed.replaced.schema_eq, ?_⟩
  rintro ⟨number, slot⟩ given
  by_cases same : number = change.page
  · subst same
    rw [HasSlot, placed.inserted.slotCount_eq]
    exact Nat.lt_succ_of_lt given
  · rw [HasSlot, placed.replaced.pageAt_other same]
    exact given

theorem Erased.continues {id : RowId} {change : Change Bool} (ordered : heap.Ordered)
    (erased : Erased heap id change) : Continues heap change.heap := by
  refine ⟨erased.replaced.ordered ordered (erased.deleted.inOrder (ordered.pageAt_inOrder _))
    erased.deleted.number_eq, erased.replaced.schema_eq, ?_⟩
  rintro ⟨number, slot⟩ given
  by_cases same : number = id.page
  · subst same
    rw [HasSlot, erased.deleted.slotCount_eq]
    exact given
  · rw [HasSlot, erased.replaced.pageAt_other same]
    exact given

/-- A change is refused by the disk or made. -/
theorem Continues.commit {Answer : Type} {change : Change Answer} {page : Page} (ordered : heap.Ordered)
    (disk : Disk) (replaced : Replaced heap change.page page change.heap)
    (continues : Continues heap change.heap) :
    Continues heap ((HeapFile.commit change).runOn (heap, disk)).2.1 ∧
      ∀ error, ((HeapFile.commit change).runOn (heap, disk)).1 = .error error →
        error = .disk .writesRefused := by
  rcases runOn_commit disk replaced.backing_eq replaced.page_new with ⟨_, result⟩ | ⟨_, result⟩
  · rw [result]
    exact ⟨ordered.continues, fun error same => (Except.error.inj same).symm⟩
  · rw [result]
    exact ⟨continues, fun error never => by cases never⟩

namespace Ordered

/-- A row is stored on pages in order unless it cannot be encoded or the disk refuses the page. -/
theorem insert (ordered : heap.Ordered) (disk : Disk) (row : Row) :
    Continues heap ((HeapFile.insert row).runOn (heap, disk)).2.1 ∧
      ∀ error, ((HeapFile.insert row).runOn (heap, disk)).1 = .error error →
        heap.encode row = .error error ∨ error = .disk .writesRefused := by
  cases encoded : heap.encode row with
  | error cause =>
    rw [runOn_insert_rejected encoded]
    refine ⟨ordered.continues, fun error same => ?_⟩
    cases same
    exact .inl rfl
  | ok bytes =>
    obtain ⟨change, _, placed, ⟨_, result⟩ | ⟨_, result⟩⟩ := ordered.runOn_insert encoded disk
    · rw [result]
      exact ⟨ordered.continues, fun error same => .inr (Except.error.inj same).symm⟩
    · rw [result]
      exact ⟨placed.continues ordered, fun error never => by cases never⟩

/-- A row on pages in order is deleted, if there is one, unless the disk refuses the page. -/
theorem delete (ordered : heap.Ordered) (disk : Disk) (id : RowId) :
    Continues heap ((HeapFile.delete id).runOn (heap, disk)).2.1 ∧
      ∀ error, ((HeapFile.delete id).runOn (heap, disk)).1 = .error error →
        error = .disk .writesRefused := by
  rw [HeapFile.delete]
  simp only [Step.runOn_bind, Step.runOn_get]
  cases removed : heap.pages[id.page]?.bind fun page => page.delete? id.slot with
  | none => exact ⟨ordered.continues, fun error never => by cases never⟩
  | some page =>
    have erased := erased_of_delete? ordered removed
    exact (erased.continues ordered).commit ordered disk erased.replaced

end Ordered

theorem lasting_ordered : Lasting Ordered where
  empty := fun schema backing => (sound_empty schema backing).ordered
  insert := fun row state ordered => ⟨(ordered.insert state.2 row).1.ordered, fun _ _ => trivial⟩
  delete := fun id state ordered => ⟨(ordered.delete state.2 id).1.ordered, fun _ _ => trivial⟩

theorem lasting_readable : Lasting fun heap => heap.Sound ∧ heap.Readable where
  empty := by
    intro schema backing
    refine ⟨sound_empty schema backing, fun id bytes never => ?_⟩
    simp [bytesAt?] at never
  insert := by
    rintro row ⟨heap, disk⟩ ⟨sound, readable⟩
    have inserts := Sound.inserts sound disk row
    exact ⟨⟨inserts.sound sound, inserts.readable sound readable⟩, fun _ _ => trivial⟩
  delete := by
    rintro id ⟨heap, disk⟩ ⟨sound, readable⟩
    have deletes := Sound.deletes sound disk id
    exact ⟨⟨deletes.sound sound, deletes.readable sound readable⟩, fun _ _ => trivial⟩

/-- Pages in order whose rows follow a schema, and any disk. -/
def Follows (schema : Schema) (state : HeapFile × Disk) : Prop :=
  state.1.Ordered ∧ state.1.schema = schema

theorem sustains_delete (schema : Schema) (id : RowId) :
    Sustains (Follows schema) (· = .disk .writesRefused) (delete id) := by
  rintro ⟨heap, disk⟩ ⟨ordered, rfl⟩
  obtain ⟨continues, fails⟩ := ordered.delete disk id
  exact ⟨⟨continues.ordered, continues.schema_eq⟩, fails⟩

/-- A row that could be encoded for one heap is refused by no heap of the schema. -/
theorem sustains_insert {bytes : List UInt8} (encoded : heap.encode row = .ok bytes) :
    Sustains (Follows heap.schema) (· = .disk .writesRefused) (insert row) := by
  rintro ⟨other, disk⟩ ⟨ordered, same⟩
  obtain ⟨continues, fails⟩ := Ordered.insert ordered disk row
  refine ⟨⟨continues.ordered, continues.schema_eq.trans same⟩, fun error failed => ?_⟩
  rcases fails error failed with rejected | refused
  · rw [encode_congr same, encoded] at rejected
    cases rejected
  · exact refused

/-- Rows that can all be encoded are exchanged one after another up to the first page that the disk
refuses. -/
theorem sustains_exchangeAll {revisions : List (RowId × Row)}
    (fit : ∀ entry ∈ revisions, ∃ bytes, heap.encode entry.2 = .ok bytes) :
    Sustains (Follows heap.schema) (· = .disk .writesRefused) (exchangeAll revisions) := by
  apply Sustains.forM
  intro entry member
  obtain ⟨bytes, encoded⟩ := fit entry member
  exact (sustains_delete _ entry.1).discard.bind fun _ => (sustains_insert encoded).discard

/-- Rows are deleted one after another up to the first page that the disk refuses. -/
theorem sustains_deleteAll (schema : Schema) (found : List (RowId × Row)) :
    Sustains (Follows schema) (· = .disk .writesRefused) (deleteAll found) := by
  apply Sustains.mapM
  intro entry _
  exact sustains_delete schema entry.1

end RowStore.HeapFile
