import RowStore.Proofs.Page.Order

/-!
Sound pages: pages in order on which every row that is not deleted lies in the row data. What is put
on a sound page is read back from its slot until it is deleted, whatever else is put there or deleted.
-/

namespace RowStore.Page

variable {page next : Page} {bytes : List UInt8} {index : Nat}

/-- A page in order on which every row that is not deleted lies in the row data. -/
structure Sound (page : Page) : Prop extends InOrder page where
  row_within : ∀ index slot, page.slot? index = some slot → slot.isDeleted = false →
    page.dataStart ≤ slot.start ∧ slot.start + slot.length ≤ blockSize

theorem Sound.ofBlock_eq_ok (sound : page.Sound) : ofBlock page.block = .ok page :=
  (ofBlock_eq_ok_iff _ _).mpr ⟨rfl, sound.toInOrder⟩

theorem slotCount_empty (number : Nat) : (empty number).slotCount = 0 := by
  simp only [slotCount, empty]
  rw [field_write_of_apart _ _ _ _ _ (by simp), field_write_of_apart _ _ _ _ _ (by simp),
    field_write_self _ _ _ _ (by decide), Nat.zero_mod]

theorem dataStart_empty (number : Nat) : (empty number).dataStart = blockSize := by
  simp only [dataStart, empty]
  rw [field_write_of_apart _ _ _ _ _ (by simp), field_write_self _ _ _ _ (by decide)]
  rfl

theorem number_empty (number : Nat) : (empty number).number = number % UInt32.size := by
  simp only [Page.number, empty]
  rw [field_write_self _ _ _ _ (by decide)]
  rfl

/-- An empty page has room for the largest row and a slot. -/
theorem freeSpace_empty (number : Nat) : (empty number).freeSpace = maxRowSize + slotSize := by
  rw [freeSpace, directoryEnd, slotCount_empty, dataStart_empty]
  rfl

theorem sound_empty (number : Nat) : (empty number).Sound := by
  refine ⟨⟨?directory_le, ?data_le⟩, ?row_within⟩
  case directory_le =>
    rw [directoryEnd, slotCount_empty, dataStart_empty]
    decide
  case data_le => rw [dataStart_empty]
  case row_within =>
    intro index slot found
    rw [slot?_eq_none _ _ (by rw [slotCount_empty]; exact Nat.zero_le _)] at found
    cases found

/-- The bytes of a slot, on a page whose slot directory may hold anything. -/
theorem get?_eq_some_iff_within (page : Page) (index : Nat) (bytes : List UInt8) :
    page.get? index = some bytes ↔ ∃ slot, page.slot? index = some slot ∧ slot.isDeleted = false ∧
      slot.start + slot.length ≤ blockSize ∧
      bytes = Bytes.slice page.bytes slot.start slot.length := by
  rw [get?]
  cases page.slot? index with
  | none => simp
  | some slot =>
    by_cases live : slot.isDeleted = false
    · by_cases within : slot.start + slot.length ≤ blockSize
      · simp only [live, Bool.false_or, decide_eq_true_eq, if_neg (Nat.not_lt.mpr within),
          Option.some.injEq, exists_eq_left', true_and, within]
        exact eq_comm
      · simp [live, within, Nat.not_le.mp within]
    · simp [live]

/-- The bytes of a row that is not deleted. -/
theorem get?_eq_some_iff (sound : page.Sound) :
    page.get? index = some bytes ↔ ∃ entry, page.slot? index = some entry ∧
      entry.isDeleted = false ∧ bytes = Bytes.slice page.bytes entry.start entry.length := by
  rw [get?_eq_some_iff_within]
  constructor
  · rintro ⟨entry, given, live, _, rfl⟩
    exact ⟨entry, given, live, rfl⟩
  · rintro ⟨entry, given, live, rfl⟩
    exact ⟨entry, given, live, (sound.row_within index entry given live).2, rfl⟩

theorem isLive_of_get? (page : Page) (found : page.get? index = some bytes) :
    page.isLive index = true := by
  rw [get?] at found
  rw [isLive]
  cases slot : page.slot? index with
  | none => simp [slot] at found
  | some entry => 
    by_cases deleted : entry.isDeleted = true
    · simp [slot, deleted] at found
    · simpa using deleted

theorem Sound.isLive_iff_get? (sound : page.Sound) :
    page.isLive index = true ↔ ∃ bytes, page.get? index = some bytes := by
  constructor
  · intro live
    obtain ⟨entry, found, kept⟩ := (isLive_iff page index).mp live
    exact ⟨_, (get?_eq_some_iff sound).mpr ⟨entry, found, kept, rfl⟩⟩
  · intro ⟨bytes, found⟩
    exact isLive_of_get? page found

theorem get?_congr (sound : page.Sound) (soundNext : next.Sound)
    (slot : next.slot? index = page.slot? index)
    (kept : ∀ start count, page.dataStart ≤ start →
      Bytes.slice next.bytes start count = Bytes.slice page.bytes start count) :
    next.get? index = page.get? index := by
  apply Option.ext
  intro bytes
  rw [get?_eq_some_iff sound, get?_eq_some_iff soundNext, slot]
  constructor
  · rintro ⟨entry, found, live, rfl⟩
    exact ⟨entry, found, live, kept _ _ (sound.row_within index entry found live).1⟩
  · rintro ⟨entry, found, live, rfl⟩
    exact ⟨entry, found, live, (kept _ _ (sound.row_within index entry found live).1).symm⟩

namespace Inserted

theorem freeSpace_eq (inserted : Inserted page bytes next) :
    next.freeSpace + (bytes.length + slotSize) = page.freeSpace := by
  have room := inserted.room
  have count := inserted.slotCount_eq
  have start := inserted.dataStart_eq
  simp only [freeSpace, directoryEnd, count] at room ⊢
  simp only [pageHeadSize, slotSize] at room ⊢
  omega

theorem inOrder (inserted : Inserted page bytes next) (inOrder : page.InOrder) : next.InOrder := by
  have room := inserted.room
  have count := inserted.slotCount_eq
  have start := inserted.dataStart_eq
  have data_le := inOrder.data_le
  simp only [freeSpace, directoryEnd, pageHeadSize, slotSize] at room
  constructor
  case directory_le =>
    simp only [directoryEnd, pageHeadSize, slotSize]
    omega
  case data_le => omega

theorem sound (inserted : Inserted page bytes next) (sound : page.Sound) : next.Sound := by
  have count := inserted.slotCount_eq
  have start := inserted.dataStart_eq
  have data_le := sound.data_le
  refine ⟨inserted.inOrder sound.toInOrder, ?row_within⟩
  case row_within =>
    intro index entry found live
    have given := lt_slotCount_of_slot? found
    by_cases old : index < page.slotCount
    · rw [inserted.slot_old index old] at found
      have within := sound.row_within index entry found live
      omega
    · have same : index = page.slotCount := by omega
      subst same
      rw [inserted.slot_new] at found
      cases found
      refine ⟨Nat.le_refl _, ?_⟩
      change next.dataStart + bytes.length ≤ blockSize
      omega

theorem get?_new (inserted : Inserted page bytes next) (inOrder : page.InOrder) :
    next.get? page.slotCount = some bytes := by
  have start := inserted.dataStart_eq
  have data_le := inOrder.data_le
  refine (get?_eq_some_iff_within _ _ _).mpr ⟨_, inserted.slot_new, ?live, ?within, ?bytes⟩
  case live =>
    simp only [blockSize] at data_le
    simp only [Slot.isDeleted, Slot.deletedMark, beq_eq_false_iff_ne]
    omega
  case within => exact start.trans_le data_le
  case bytes => exact inserted.slice_new.symm

theorem get?_other (inserted : Inserted page bytes next) (sound : page.Sound)
    (other : index ≠ page.slotCount) : next.get? index = page.get? index := by
  apply get?_congr sound (inserted.sound sound) _ inserted.slice_old
  by_cases old : index < page.slotCount
  · exact inserted.slot_old index old
  · rw [slot?_eq_none page index (by omega), slot?_eq_none next index]
    have count := inserted.slotCount_eq
    omega

end Inserted

namespace Deleted

theorem freeSpace_eq (deleted : Deleted page index next) : next.freeSpace = page.freeSpace := by
  rw [freeSpace, freeSpace, directoryEnd, directoryEnd, deleted.slotCount_eq, deleted.dataStart_eq]

theorem inOrder (deleted : Deleted page index next) (inOrder : page.InOrder) : next.InOrder := by
  have directoryEnd_eq : next.directoryEnd = page.directoryEnd := by
    rw [directoryEnd, directoryEnd, deleted.slotCount_eq]
  constructor
  case directory_le =>
    rw [directoryEnd_eq, deleted.dataStart_eq]
    exact inOrder.directory_le
  case data_le =>
    rw [deleted.dataStart_eq]
    exact inOrder.data_le

theorem sound (deleted : Deleted page index next) (sound : page.Sound) : next.Sound := by
  refine ⟨deleted.inOrder sound.toInOrder, ?row_within⟩
  case row_within =>
    intro other entry found live
    by_cases same : other = index
    · obtain ⟨length, mark⟩ := deleted.slot_deleted
      rw [same, mark] at found
      cases found
      cases live
    · rw [deleted.slot_other other same] at found
      rw [deleted.dataStart_eq]
      exact sound.row_within other entry found live

theorem get?_self (deleted : Deleted page index next) : next.get? index = none := by
  obtain ⟨length, mark⟩ := deleted.slot_deleted
  simp [get?, mark, Slot.isDeleted]

theorem get?_other (deleted : Deleted page index next) (sound : page.Sound) {other : Nat}
    (different : other ≠ index) : next.get? other = page.get? other := by
  apply get?_congr sound (deleted.sound sound) (deleted.slot_other other different)
  intro start count behind
  exact deleted.slice_data start count (Nat.le_trans sound.directory_le behind)

end Deleted

end RowStore.Page
