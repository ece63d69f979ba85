import RowStore.Proofs.Page.Fields

/-!
Pages in order, whose row data lies between the slot directory and the end, and what becomes of one
when a row is put on it or deleted: its slots and its row data stay as they are, but for the row in
question.
-/

namespace RowStore.Page

variable {page next : Page} {bytes : List UInt8} {slot : Nat}

/-- The head of a page is in order: row data lies between the slot directory and the end. -/
structure InOrder (page : Page) : Prop where
  directory_le : page.directoryEnd ≤ page.dataStart
  data_le : page.dataStart ≤ blockSize

theorem fault?_eq_none_iff (page : Page) : page.fault? = none ↔ page.InOrder := by
  rw [fault?]
  constructor
  · intro faultless
    split at faultless
    · cases faultless
    · split at faultless
      · cases faultless
      · exact ⟨by omega, by omega⟩
  · intro inOrder
    rw [if_neg (Nat.not_lt.mpr inOrder.data_le), if_neg (Nat.not_lt.mpr inOrder.directory_le)]

theorem ofBlock_eq_ok_iff (block : Block) (page : Page) :
    ofBlock block = .ok page ↔ page = ⟨block⟩ ∧ page.InOrder := by
  simp only [ofBlock]
  cases found : Page.fault? ⟨block⟩ with
  | some fault =>
    simp only [reduceCtorEq, false_iff, not_and]
    rintro rfl inOrder
    rw [(fault?_eq_none_iff _).mpr inOrder] at found
    cases found
  | none =>
    simp only [Except.ok.injEq]
    constructor
    · rintro rfl
      exact ⟨rfl, (fault?_eq_none_iff _).mp found⟩
    · rintro ⟨rfl, _⟩
      rfl

/-- What becomes of a page when a row is put on it. -/
structure Inserted (page : Page) (bytes : List UInt8) (next : Page) : Prop where
  room : bytes.length + slotSize ≤ page.freeSpace
  slotCount_eq : next.slotCount = page.slotCount + 1
  dataStart_eq : next.dataStart + bytes.length = page.dataStart
  number_eq : next.number = page.number
  slot_new : next.slot? page.slotCount = some ⟨next.dataStart, bytes.length⟩
  slot_old : ∀ index, index < page.slotCount → next.slot? index = page.slot? index
  slice_new : Bytes.slice next.bytes next.dataStart bytes.length = bytes
  slice_old : ∀ start count, page.dataStart ≤ start →
    Bytes.slice next.bytes start count = Bytes.slice page.bytes start count

/-- What becomes of a page when one of its rows is deleted. -/
structure Deleted (page : Page) (index : Nat) (next : Page) : Prop where
  live : page.isLive index = true
  slotCount_eq : next.slotCount = page.slotCount
  dataStart_eq : next.dataStart = page.dataStart
  number_eq : next.number = page.number
  slot_deleted : ∃ length, next.slot? index = some ⟨Slot.deletedMark, length⟩
  slot_other : ∀ other, other ≠ index → next.slot? other = page.slot? other
  slice_data : ∀ start count, page.directoryEnd ≤ start →
    Bytes.slice next.bytes start count = Bytes.slice page.bytes start count

/-- A page with a row put on it, field by field. -/
def withRow (page : Page) (bytes : List UInt8) : Page :=
  let start := page.dataStart - bytes.length
  let position := slotPosition page.slotCount
  ((((page.write start bytes).write position (Bytes.ofNat 2 start)).write (position + 2)
    (Bytes.ofNat 2 bytes.length)).write 0 (Bytes.ofNat 2 (page.slotCount + 1))).write 2
      (Bytes.ofNat 2 start)

theorem insert?_eq (page : Page) (bytes : List UInt8) :
    page.insert? bytes =
      if page.freeSpace < bytes.length + slotSize then none
      else some (page.withRow bytes, page.slotCount) := by
  simp only [insert?, withRow, Slot.bytes, write_append, Bytes.length_ofNat]

/-- A slot that does not meet a written stretch stands for the same row. -/
theorem slot?_congr (index : Nat) (count : index < page.slotCount ↔ index < next.slotCount)
    (kept : ∀ start, start = slotPosition index ∨ start = slotPosition index + 2 →
      next.field start 2 = page.field start 2) :
    next.slot? index = page.slot? index := by
  simp only [slot?, kept _ (.inl rfl), kept _ (.inr rfl), count]

/-- A row is put on the free space of a page: what lies in the slot directory or in the row data
stays, and so does the number of the page. -/
theorem slice_withRow_of_apart (inOrder : page.InOrder)
    (room : bytes.length + slotSize ≤ page.freeSpace) (start count : Nat)
    (apart : 4 ≤ start ∧ start + count ≤ page.directoryEnd ∨ page.dataStart ≤ start) :
    Bytes.slice (page.withRow bytes).bytes start count = Bytes.slice page.bytes start count := by
  have directory_le := inOrder.directory_le
  have position : slotPosition page.slotCount = page.directoryEnd := rfl
  have behind : 8 ≤ page.directoryEnd := by simp [directoryEnd, pageHeadSize]
  simp only [freeSpace, slotSize] at room
  rw [withRow]
  iterate 4 rw [slice_write_of_apart _ _ _ _ _ (by simp only [Bytes.length_ofNat]; omega)]
  exact slice_write_of_apart _ _ _ _ _ (by omega)

theorem inserted_withRow (inOrder : page.InOrder) (room : bytes.length + slotSize ≤ page.freeSpace) :
    Inserted page bytes (page.withRow bytes) := by
  have directory_le := inOrder.directory_le
  have data_le := inOrder.data_le
  have kept := slice_withRow_of_apart inOrder room
  have within : page.directoryEnd + 4 + bytes.length ≤ page.dataStart := by
    simp only [freeSpace, slotSize] at room
    omega
  have directoryEnd_eq : page.directoryEnd = 8 + page.slotCount * 4 := rfl
  simp only [blockSize] at data_le
  have slotCount_eq : (page.withRow bytes).slotCount = page.slotCount + 1 := by
    simp only [slotCount, withRow]
    rw [field_write_of_apart _ _ _ _ _ (by simp), field_write_self _ _ _ _ (by decide)]
    change (page.slotCount + 1) % 256 ^ 2 = page.slotCount + 1
    omega
  have dataStart_eq : (page.withRow bytes).dataStart = page.dataStart - bytes.length := by
    simp only [dataStart, withRow]
    rw [field_write_self _ _ _ _ (by decide)]
    change (page.dataStart - bytes.length) % 256 ^ 2 = page.dataStart - bytes.length
    omega
  constructor
  case room => exact room
  case slotCount_eq => exact slotCount_eq
  case dataStart_eq => omega
  case number_eq =>
    simp only [number, field]
    rw [kept 4 4 (.inl (by omega))]
  case slot_new =>
    have position : slotPosition page.slotCount = page.directoryEnd := rfl
    rw [slot?, if_pos (by omega), dataStart_eq, withRow, position]
    iterate 2
      rw [field_write_of_apart _ 2 _ _ _ (by simp only [Bytes.length_ofNat]; omega),
        field_write_of_apart _ 0 _ _ _ (by simp only [Bytes.length_ofNat]; omega)]
    rw [field_write_of_apart _ _ _ _ _ (by simp only [Bytes.length_ofNat]; omega),
      field_write_self _ _ _ _ (by simp only [blockSize]; omega),
      field_write_self _ _ _ _ (by simp only [blockSize]; omega)]
    rw [Nat.mod_eq_of_lt (by omega), Nat.mod_eq_of_lt (by omega)]
  case slot_old =>
    intro index old
    apply slot?_congr
    · omega
    · intro start place
      simp only [slotPosition, pageHeadSize, slotSize] at place
      rw [field, field, kept start 2 (.inl (by omega))]
  case slice_new =>
    have position : slotPosition page.slotCount = page.directoryEnd := rfl
    rw [dataStart_eq, withRow, position]
    iterate 4 rw [slice_write_of_apart _ _ _ _ _ (by simp only [Bytes.length_ofNat]; omega)]
    exact slice_write_self _ _ _ (by simp only [blockSize]; omega)
  case slice_old =>
    intro start count behind
    exact kept start count (.inr behind)

theorem inserted_of_insert? (inOrder : page.InOrder)
    (placed : page.insert? bytes = some (next, slot)) :
    slot = page.slotCount ∧ Inserted page bytes next := by
  rw [insert?_eq] at placed
  split at placed
  · cases placed
  · rename_i enough
    simp only [Option.some.injEq, Prod.mk.injEq] at placed
    obtain ⟨rfl, rfl⟩ := placed
    exact ⟨rfl, inserted_withRow inOrder (Nat.le_of_not_lt enough)⟩

/-- A page takes a row exactly if its free space holds the row and a slot. -/
theorem insert?_eq_none_iff (page : Page) (bytes : List UInt8) :
    page.insert? bytes = none ↔ page.freeSpace < bytes.length + slotSize := by
  rw [insert?_eq]
  split <;> simp_all

theorem slot?_eq_none (page : Page) (index : Nat) (beyond : page.slotCount ≤ index) :
    page.slot? index = none := by
  rw [slot?, if_neg (Nat.not_lt.mpr beyond)]

theorem lt_slotCount_of_slot? {index : Nat} {entry : Slot} (found : page.slot? index = some entry) :
    index < page.slotCount := by
  by_contra beyond
  rw [slot?_eq_none page index (Nat.le_of_not_lt beyond)] at found
  cases found

theorem isLive_iff (page : Page) (index : Nat) :
    page.isLive index = true ↔ ∃ entry, page.slot? index = some entry ∧ entry.isDeleted = false := by
  rw [isLive]
  cases page.slot? index with
  | none => simp
  | some entry => simp

theorem deleted_of_delete? {index : Nat} (inOrder : page.InOrder)
    (erased : page.delete? index = some next) : Deleted page index next := by
  have directory_le := inOrder.directory_le
  have data_le := inOrder.data_le
  rw [delete?] at erased
  split at erased
  case isFalse => cases erased
  case isTrue live =>
    obtain ⟨entry, found, _⟩ := (isLive_iff page index).mp live
    have given := lt_slotCount_of_slot? found
    have directoryEnd_eq : page.directoryEnd = 8 + page.slotCount * 4 := rfl
    have position : slotPosition index = 8 + index * 4 := rfl
    simp only [blockSize] at data_le
    cases erased
    have kept (start width : Nat) (apart : start + width ≤ slotPosition index ∨
        slotPosition index + 2 ≤ start) :
        (page.write (slotPosition index) (Bytes.ofNat 2 Slot.deletedMark)).field start width =
          page.field start width :=
      field_write_of_apart _ _ _ _ _ (by simpa using apart)
    have slotCount_eq : (page.write (slotPosition index)
        (Bytes.ofNat 2 Slot.deletedMark)).slotCount = page.slotCount := kept 0 2 (.inl (by omega))
    constructor
    case live => exact live
    case slotCount_eq => exact slotCount_eq
    case dataStart_eq => exact kept 2 2 (.inl (by omega))
    case number_eq => exact kept 4 4 (.inl (by omega))
    case slot_deleted =>
      refine ⟨page.field (slotPosition index + 2) 2, ?_⟩
      rw [slot?, slotCount_eq, if_pos given, kept (slotPosition index + 2) 2 (.inr (by omega)),
        field_write_self _ _ _ _ (by simp only [blockSize]; omega)]
      rfl
    case slot_other =>
      intro other different
      apply slot?_congr
      · rw [slotCount_eq]
      · intro start place
        simp only [slotPosition, pageHeadSize, slotSize] at place
        exact kept start 2 (by omega)
    case slice_data =>
      intro start length behind
      exact slice_write_of_apart _ _ _ _ _ (.inr (by simp only [Bytes.length_ofNat]; omega))

theorem delete?_eq_none_iff (page : Page) (index : Nat) :
    page.delete? index = none ↔ page.isLive index = false := by
  rw [delete?]
  split <;> simp_all

end RowStore.Page
