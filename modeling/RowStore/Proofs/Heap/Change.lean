import RowStore.Proofs.Heap.Sound

/-!
What a call does to a sound heap and its disk. A row is refused as it is encoded, refused by the disk,
or stored on one page; a row to delete is absent, kept because the disk refuses the write, or deleted
on its page.
-/

namespace RowStore.HeapFile

variable {heap next : HeapFile} {bytes : List UInt8} {id : RowId} {row : Row} {disk after : Disk}

/-- A change that puts the bytes of a row on a page with room for them. -/
structure Placed (heap : HeapFile) (bytes : List UInt8) (change : Change RowId) : Prop where
  inserted : Page.Inserted (heap.pageAt change.page) bytes (change.heap.pageAt change.page)
  replaced : Replaced heap change.page (change.heap.pageAt change.page) change.heap
  answer_eq : change.answer = ⟨change.page, (heap.pageAt change.page).slotCount⟩

/-- A change that deletes the row at an address on its page. -/
structure Erased (heap : HeapFile) (id : RowId) (change : Change Bool) : Prop where
  deleted : Page.Deleted (heap.pageAt id.page) id.slot (change.heap.pageAt id.page)
  replaced : Replaced heap id.page (change.heap.pageAt id.page) change.heap
  page_eq : change.page = id.page
  answer_eq : change.answer = true

theorem placed_of_replaced {number slot : Nat} {page : Page} (ordered : heap.Ordered)
    (replaced : Replaced heap number page next)
    (placed : (heap.pageAt number).insert? bytes = some (page, slot)) :
    Placed heap bytes ⟨next, number, ⟨number, slot⟩⟩ := by
  obtain ⟨rfl, inserted⟩ := Page.inserted_of_insert? (ordered.pageAt_inOrder number) placed
  have same := replaced.pageAt_new
  exact ⟨same ▸ inserted, same ▸ replaced, rfl⟩

/-- Bytes that a page can hold find room on an empty one. -/
theorem exists_insert?_empty (fits : bytes.length ≤ maxRowSize) (number : Nat) :
    ∃ placed, (Page.empty number).insert? bytes = some placed := by
  rw [← Option.ne_none_iff_exists', ne_eq, Page.insert?_eq_none_iff, Page.freeSpace_empty,
    Nat.add_lt_add_iff_right]
  exact Nat.not_lt.mpr fits

/-- The page that the map names is there, and has room. -/
theorem Ordered.exists_insert?_of_find? (ordered : heap.Ordered) {number : Nat}
    (found : heap.freeSpace.find? (bytes.length + slotSize) = some number) :
    ∃ page placed, heap.pages[number]? = some page ∧ page.insert? bytes = some placed := by
  obtain ⟨known, enough, _⟩ := List.findIdx?_eq_some_iff_getElem.mp found
  simp only [ordered.map_exact, List.length_map] at known
  simp only [ordered.map_exact, List.getElem_map, decide_eq_true_eq] at enough
  have room : heap.pages[number].insert? bytes ≠ none := by
    rw [ne_eq, Page.insert?_eq_none_iff]
    exact Nat.not_lt.mpr enough
  obtain ⟨placed, put⟩ := Option.ne_none_iff_exists'.mp room
  exact ⟨_, placed, List.getElem?_eq_getElem known, put⟩

theorem exists_placeOnNewPage (ordered : heap.Ordered) (fits : bytes.length ≤ maxRowSize) :
    ∃ change, heap.placeOnNewPage bytes = .ok change ∧ change.page = heap.pages.length ∧
      Placed heap bytes change := by
  have new : heap.pageAt heap.pages.length = Page.empty heap.pages.length := by
    rw [pageAt, List.getElem?_eq_none (Nat.le_refl _), Option.getD_none]
  obtain ⟨⟨page, slot⟩, put⟩ := exists_insert?_empty fits heap.pages.length
  refine ⟨⟨heap.addPage page, heap.pages.length, ⟨heap.pages.length, slot⟩⟩, ?_, rfl, ?_⟩
  · unfold placeOnNewPage
    dsimp only
    rw [put]
  · exact placed_of_replaced ordered (replaced_addPage heap page) (new ▸ put)

/-- Bytes that a page can hold find their place on the page that the map names, or on a new page if it
names none. -/
theorem exists_place (ordered : heap.Ordered) (fits : bytes.length ≤ maxRowSize) :
    ∃ change, heap.place bytes = .ok change ∧
      change.page = (heap.freeSpace.find? (bytes.length + slotSize)).getD heap.pages.length ∧
      Placed heap bytes change := by
  rw [place]
  cases found : heap.freeSpace.find? (bytes.length + slotSize) with
  | none => exact exists_placeOnNewPage ordered fits
  | some number =>
    obtain ⟨old, ⟨page, slot⟩, present, put⟩ := ordered.exists_insert?_of_find? found
    have inside := (List.getElem?_eq_some_iff.mp present).1
    have page_eq : heap.pageAt number = old := by rw [pageAt, present, Option.getD_some]
    refine ⟨⟨heap.setPage number page, number, ⟨number, slot⟩⟩, ?_, rfl, ?_⟩
    · simp only [present, put]
    · exact placed_of_replaced ordered (replaced_setPage heap number page inside) (page_eq ▸ put)

/-- Whether the next write to the file behind a heap fails. -/
def Refused (heap : HeapFile) (disk : Disk) : Prop :=
  heap.backing.isSome = true ∧ disk.refuses disk.writes = true

/-- The disk once a write to the file behind a heap has failed. -/
def afterRefusal (disk : Disk) : Disk := { disk with writes := disk.writes + 1 }

/-- The disk once a page is written to the file behind a heap, if there is one. -/
def afterWrite (heap : HeapFile) (number : Nat) (page : Page) (disk : Disk) : Disk :=
  match heap.backing with
  | none => disk
  | some file =>
    (afterRefusal disk).modifyContents file.file (·.writeBlock number page.block)

theorem runOn_writePage (file : PageFile) (number : Nat) (block : Block) (disk : Disk) :
    (file.writePage number block).runOn disk =
      if disk.refuses disk.writes then (.error .writesRefused, afterRefusal disk)
      else (.ok (), (afterRefusal disk).modifyContents file.file (·.writeBlock number block)) := by
  simp only [PageFile.writePage, Disk.writeBlock, Disk.attemptWrite, Disk.attempt, Step.runOn,
    ExceptT.run, ExceptT.mk, StateT.run, if_neg (show ¬ blockSize = 0 by decide)]
  cases disk.refuses disk.writes <;> rfl

/-- A change counts exactly if its page is written. -/
theorem runOn_commit {Answer : Type} {change : Change Answer} {page : Page} (disk : Disk)
    (backing : change.heap.backing = heap.backing)
    (present : change.heap.pages[change.page]? = some page) :
    (Refused heap disk ∧ (commit change).runOn (heap, disk) =
      (.error (.disk .writesRefused), heap, afterRefusal disk)) ∨
    (¬ Refused heap disk ∧ (commit change).runOn (heap, disk) =
      (.ok change.answer, change.heap, afterWrite heap change.page page disk)) := by
  rw [commit, backing]
  cases found : heap.backing with
  | none =>
    right
    refine ⟨by simp [Refused, found], ?_⟩
    simp only [Step.runOn_bind, Step.runOn_pure, Step.runOn_modify, afterWrite, found]
  | some file =>
    simp only [present, Step.runOn_bind, Step.runOn_onSecond, Step.runOn_mapError, runOn_writePage]
    cases refused : disk.refuses disk.writes with
    | true =>
      left
      exact ⟨by simp [Refused, found, refused], by simp [Except.mapError]⟩
    | false =>
      right
      refine ⟨by simp [Refused, refused], ?_⟩
      simp [Except.mapError, afterWrite, found]

/-- What a call to store a row does. -/
inductive Inserts (heap : HeapFile) (disk : Disk) (row : Row) :
    Except StorageError RowId → HeapFile → Disk → Prop where
  | rejected (cause : StorageError) (rejection : heap.encode row = .error cause) :
      Inserts heap disk row (.error cause) heap disk
  | refused (bytes : List UInt8) (encoded : heap.encode row = .ok bytes)
      (refusal : Refused heap disk) :
      Inserts heap disk row (.error (.disk .writesRefused)) heap (afterRefusal disk)
  | stored (bytes : List UInt8) (change : Change RowId) (encoded : heap.encode row = .ok bytes)
      (placed : Placed heap bytes change) (taken : ¬ Refused heap disk) :
      Inserts heap disk row (.ok change.answer) change.heap
        (afterWrite heap change.page (change.heap.pageAt change.page) disk)

/-- What a call to delete the row at an address does. -/
inductive Deletes (heap : HeapFile) (disk : Disk) (id : RowId) :
    Except StorageError Bool → HeapFile → Disk → Prop where
  | absent (missing : heap.bytesAt? id = none) : Deletes heap disk id (.ok false) heap disk
  | refused (bytes : List UInt8) (found : heap.bytesAt? id = some bytes)
      (refusal : Refused heap disk) :
      Deletes heap disk id (.error (.disk .writesRefused)) heap (afterRefusal disk)
  | deleted (bytes : List UInt8) (change : Change Bool) (found : heap.bytesAt? id = some bytes)
      (erased : Erased heap id change) (taken : ¬ Refused heap disk) :
      Deletes heap disk id (.ok true) change.heap
        (afterWrite heap id.page (change.heap.pageAt id.page) disk)

theorem encode_eq_ok_iff (heap : HeapFile) (row : Row) (bytes : List UInt8) :
    heap.encode row = .ok bytes ↔
      row.encode heap.schema = .ok bytes ∧ bytes.length ≤ maxRowSize := by
  rw [encode]
  cases row.encode heap.schema with
  | error mismatch => simp [Except.mapError, bind, Except.bind]
  | ok found =>
    by_cases large : maxRowSize < found.length
    · simp only [Except.mapError, bind, Except.bind, if_pos large, throw, throwThe,
        MonadExceptOf.throw, reduceCtorEq, Except.ok.injEq, false_iff, not_and]
      rintro rfl
      exact Nat.not_le.mpr large
    · simp only [Except.mapError, bind, Except.bind, if_neg large, pure, Except.pure,
        Except.ok.injEq, iff_self_and]
      rintro rfl
      exact Nat.le_of_not_lt large

/-- A heap takes a row exactly if it is one of its schema and a page has room for it. -/
theorem exists_encode_iff (heap : HeapFile) (row : Row) :
    (∃ bytes, heap.encode row = .ok bytes) ↔
      Row.check heap.schema row = .ok () ∧ row.width heap.schema.columns.length ≤ maxRowSize := by
  simp only [encode_eq_ok_iff]
  constructor
  · rintro ⟨bytes, encoded, small⟩
    exact ⟨((Row.encode_eq_ok_iff _ _ _).mp encoded).1, Row.length_of_encode encoded ▸ small⟩
  · rintro ⟨accepted, small⟩
    have encoded := (Row.encode_eq_ok_iff _ _ _).mpr ⟨accepted, rfl⟩
    exact ⟨_, encoded, Row.length_of_encode encoded ▸ small⟩

theorem Placed.present {change : Change RowId} (placed : Placed heap bytes change) :
    change.heap.pages[change.page]? = some (change.heap.pageAt change.page) :=
  placed.replaced.page_new

/-- The bytes are found where they were put. -/
theorem Placed.bytesAt?_new {change : Change RowId} (placed : Placed heap bytes change)
    (ordered : heap.Ordered) : change.heap.bytesAt? change.answer = some bytes := by
  rw [placed.answer_eq, bytesAt?_eq]
  exact placed.inserted.get?_new (ordered.pageAt_inOrder change.page)

theorem runOn_insert_rejected {cause : StorageError} (rejection : heap.encode row = .error cause)
    (disk : Disk) : (insert row).runOn (heap, disk) = (.error cause, heap, disk) := by
  rw [insert]
  simp only [Step.runOn_bind, Step.runOn_get, Step.runOn_ofExcept, rejection]

/-- A row that a page can hold is put in its place, unless the disk refuses the page. -/
theorem Ordered.runOn_insert (ordered : heap.Ordered) (encoded : heap.encode row = .ok bytes)
    (disk : Disk) :
    ∃ change,
      change.page = (heap.freeSpace.find? (bytes.length + slotSize)).getD heap.pages.length ∧
      Placed heap bytes change ∧
      ((Refused heap disk ∧ (insert row).runOn (heap, disk) =
        (.error (.disk .writesRefused), heap, afterRefusal disk)) ∨
      (¬ Refused heap disk ∧ (insert row).runOn (heap, disk) =
        (.ok change.answer, change.heap,
          afterWrite heap change.page (change.heap.pageAt change.page) disk))) := by
  obtain ⟨change, place, page_eq, placed⟩ :=
    exists_place ordered ((encode_eq_ok_iff _ _ _).mp encoded).2
  refine ⟨change, page_eq, placed, ?_⟩
  rw [insert]
  simp only [Step.runOn_bind, Step.runOn_get, Step.runOn_ofExcept, encoded, place]
  exact runOn_commit disk placed.replaced.backing_eq placed.present

theorem Ordered.inserts (ordered : heap.Ordered) (disk : Disk) (row : Row) :
    Inserts heap disk row ((insert row).runOn (heap, disk)).1
      ((insert row).runOn (heap, disk)).2.1 ((insert row).runOn (heap, disk)).2.2 := by
  cases encoded : heap.encode row with
  | error cause =>
    rw [runOn_insert_rejected encoded]
    exact .rejected cause encoded
  | ok bytes =>
    obtain ⟨change, _, placed, ⟨refusal, result⟩ | ⟨taken, result⟩⟩ :=
      ordered.runOn_insert encoded disk
    · rw [result]
      exact .refused bytes encoded refusal
    · rw [result]
      exact .stored bytes change encoded placed taken

theorem Sound.inserts (sound : heap.Sound) (disk : Disk) (row : Row) :
    Inserts heap disk row ((insert row).runOn (heap, disk)).1
      ((insert row).runOn (heap, disk)).2.1 ((insert row).runOn (heap, disk)).2.2 :=
  sound.ordered.inserts disk row

theorem erased_of_delete? {page : Page} (ordered : heap.Ordered)
    (removed : (heap.pages[id.page]?.bind fun page => page.delete? id.slot) = some page) :
    Erased heap id ⟨heap.setPage id.page page, id.page, true⟩ := by
  obtain ⟨old, present, deletion⟩ := Option.bind_eq_some_iff.mp removed
  have inside := (List.getElem?_eq_some_iff.mp present).1
  have old_eq : heap.pageAt id.page = old := by rw [pageAt, present, Option.getD_some]
  have replaced := replaced_setPage heap id.page page inside
  have same := replaced.pageAt_new
  have deleted := Page.deleted_of_delete? (ordered.in_order _ old present) deletion
  refine ⟨?deleted, ?replaced, rfl, rfl⟩
  case deleted => rw [old_eq, same]; exact deleted
  case replaced => rw [same]; exact replaced

theorem bytesAt?_eq_none_iff (sound : heap.Sound) (id : RowId) :
    heap.bytesAt? id = none ↔ (heap.pages[id.page]?.bind fun page => page.delete? id.slot) = none := by
  rw [bytesAt?]
  cases present : heap.pages[id.page]? with
  | none => simp
  | some page =>
    rw [Option.bind_some, Option.bind_some, Page.delete?_eq_none_iff, ← Bool.not_eq_true,
      (sound.page_sound _ page present).isLive_iff_get?, Option.eq_none_iff_forall_ne_some, not_exists]

theorem Sound.deletes (sound : heap.Sound) (disk : Disk) (id : RowId) :
    Deletes heap disk id ((delete id).runOn (heap, disk)).1
      ((delete id).runOn (heap, disk)).2.1 ((delete id).runOn (heap, disk)).2.2 := by
  have missing := bytesAt?_eq_none_iff sound id
  rw [delete]
  simp only [Step.runOn_bind, Step.runOn_get]
  cases removed : heap.pages[id.page]?.bind fun page => page.delete? id.slot with
  | none => exact .absent (missing.mpr removed)
  | some page =>
    have erased := erased_of_delete? sound.ordered removed
    have found : ∃ bytes, heap.bytesAt? id = some bytes := by
      rw [← Option.ne_none_iff_exists', ne_eq, missing, removed]
      exact Option.some_ne_none page
    obtain ⟨bytes, found⟩ := found
    rcases runOn_commit disk erased.replaced.backing_eq erased.replaced.page_new with
      ⟨refusal, result⟩ | ⟨taken, result⟩
    · simp only [result]
      exact .refused bytes found refusal
    · simp only [result]
      exact .deleted bytes _ found erased taken

theorem Inserts.sound {answer : Except StorageError RowId} (sound : heap.Sound)
    (inserts : Inserts heap disk row answer next after) : next.Sound := by
  cases inserts with
  | rejected => exact sound
  | refused => exact sound
  | stored bytes change encoded placed taken =>
    exact placed.replaced.sound sound (placed.inserted.sound (sound.pageAt_sound _))
      placed.inserted.number_eq

theorem Deletes.sound {answer : Except StorageError Bool} (sound : heap.Sound)
    (deletes : Deletes heap disk id answer next after) : next.Sound := by
  cases deletes with
  | absent => exact sound
  | refused => exact sound
  | deleted bytes change found erased taken =>
    exact erased.replaced.sound sound (erased.deleted.sound (sound.pageAt_sound _))
      erased.deleted.number_eq

@[simp]
theorem refuses_afterRefusal (disk : Disk) : (afterRefusal disk).refuses = disk.refuses := rfl

@[simp]
theorem refuses_afterWrite (heap : HeapFile) (number : Nat) (page : Page) (disk : Disk) :
    (afterWrite heap number page disk).refuses = disk.refuses := by
  rw [afterWrite]
  cases heap.backing <;> rfl

theorem Inserts.refuses_eq {answer : Except StorageError RowId}
    (inserts : Inserts heap disk row answer next after) : after.refuses = disk.refuses := by
  cases inserts <;> simp

theorem Deletes.refuses_eq {answer : Except StorageError Bool}
    (deletes : Deletes heap disk id answer next after) : after.refuses = disk.refuses := by
  cases deletes <;> simp

/-- Bytes stored at an address that was not given out before, with all other addresses as they were. -/
structure Stored (heap : HeapFile) (bytes : List UInt8) (id : RowId) (next : HeapFile) : Prop where
  schema_eq : next.schema = heap.schema
  fresh : ¬ heap.HasSlot id
  slots : ∀ other, next.HasSlot other ↔ other = id ∨ heap.HasSlot other
  bytes_new : next.bytesAt? id = some bytes
  bytes_other : ∀ other, other ≠ id → next.bytesAt? other = heap.bytesAt? other

/-- The row at an address deleted, with all other addresses as they were. -/
structure Removed (heap : HeapFile) (id : RowId) (next : HeapFile) : Prop where
  schema_eq : next.schema = heap.schema
  slots : ∀ other, next.HasSlot other ↔ heap.HasSlot other
  bytes_removed : next.bytesAt? id = none
  bytes_other : ∀ other, other ≠ id → next.bytesAt? other = heap.bytesAt? other

theorem Placed.stored {change : Change RowId} (sound : heap.Sound)
    (placed : Placed heap bytes change) : Stored heap bytes change.answer change.heap := by
  have pageSound := sound.pageAt_sound change.page
  have count := placed.inserted.slotCount_eq
  rw [placed.answer_eq]
  constructor
  case schema_eq => exact placed.replaced.schema_eq
  case fresh => exact Nat.lt_irrefl _
  case slots =>
    intro ⟨number, slot⟩
    simp only [HasSlot, RowId.mk.injEq]
    by_cases same : number = change.page
    · subst same
      omega
    · rw [placed.replaced.pageAt_other same]
      simp only [same, false_and, false_or]
  case bytes_new => exact placed.answer_eq ▸ placed.bytesAt?_new sound.ordered
  case bytes_other =>
    intro ⟨number, slot⟩ different
    rw [bytesAt?_eq, bytesAt?_eq]
    by_cases same : number = change.page
    · subst same
      apply placed.inserted.get?_other pageSound
      rintro rfl
      exact different rfl
    · rw [placed.replaced.pageAt_other same]

theorem Erased.removed {change : Change Bool} (sound : heap.Sound)
    (erased : Erased heap id change) : Removed heap id change.heap := by
  have pageSound := sound.pageAt_sound id.page
  constructor
  case schema_eq => exact erased.replaced.schema_eq
  case slots =>
    intro ⟨number, slot⟩
    simp only [HasSlot]
    by_cases same : number = id.page
    · rw [same, erased.deleted.slotCount_eq]
    · rw [erased.replaced.pageAt_other same]
  case bytes_removed =>
    rw [bytesAt?_eq]
    exact erased.deleted.get?_self
  case bytes_other =>
    intro ⟨number, slot⟩ different
    rw [bytesAt?_eq, bytesAt?_eq]
    by_cases same : number = id.page
    · subst same
      apply erased.deleted.get?_other pageSound
      rintro rfl
      exact different rfl
    · rw [erased.replaced.pageAt_other same]

end RowStore.HeapFile
