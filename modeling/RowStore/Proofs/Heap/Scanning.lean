import RowStore.Proofs.Heap.Loading
import RowStore.Proofs.Heap.Rows

/-!
What a scan lists of a file. Opening a file checks the heads of its pages and no entry of their slot
directories, so an entry may name bytes that are not on its page. A scan passes over such an entry, and
fails only for bytes that are on their page and spell no row.
-/

namespace RowStore

namespace PageFile

variable {file : PageFile} {disk : Disk} {id : RowId}

/-- The page of a number, as the file has it. -/
def page (file : PageFile) (disk : Disk) (number : Nat) : Page :=
  ⟨(disk.contents file.file).block number⟩

/-- The slot directory of a page of the file has an entry at an address, not marked as deleted. -/
structure Enters (file : PageFile) (disk : Disk) (id : RowId) (slot : Slot) : Prop where
  counted : id.page < file.pageCount disk
  given : (file.page disk id.page).slot? id.slot = some slot
  kept : slot.isDeleted = false

/-- The entry at an address names bytes that are not all on its page. -/
def Outlying (file : PageFile) (disk : Disk) (id : RowId) : Prop :=
  ∃ slot, file.Enters disk id slot ∧ blockSize < slot.start + slot.length

/-- The entry at an address names these bytes of its page. -/
def Holds (file : PageFile) (disk : Disk) (id : RowId) (bytes : List UInt8) : Prop :=
  ∃ slot, file.Enters disk id slot ∧ slot.start + slot.length ≤ blockSize ∧
    bytes = Bytes.slice (file.page disk id.page).bytes slot.start slot.length

theorem Enters.unique {slot other : Slot} (enters : file.Enters disk id slot)
    (again : file.Enters disk id other) : slot = other :=
  Option.some.inj (enters.given.symm.trans again.given)

/-- Among the entries, those that are not outlying are those that name bytes of their page. -/
theorem exists_holds_iff :
    (∃ bytes, file.Holds disk id bytes) ↔
      (∃ slot, file.Enters disk id slot) ∧ ¬ file.Outlying disk id := by
  constructor
  · rintro ⟨bytes, slot, enters, within, _⟩
    refine ⟨⟨slot, enters⟩, ?_⟩
    rintro ⟨other, again, beyond⟩
    rw [enters.unique again] at within
    omega
  · rintro ⟨⟨slot, enters⟩, inside⟩
    have within : slot.start + slot.length ≤ blockSize :=
      Nat.not_lt.mp fun beyond => inside ⟨slot, enters, beyond⟩
    exact ⟨_, slot, enters, within, rfl⟩

end PageFile

namespace HeapFile

variable {heap : HeapFile} {file : PageFile} {disk after : Disk} {schema : Schema} {path : String}
  {rows : List (RowId × Row)}

/-- An opened heap has the pages of its file. -/
theorem getElem?_of_openAt (opened : (openAt schema path).runOn disk = (.ok heap, after))
    (backed : heap.backing = some file) (number : Nat) (page : Page) :
    heap.pages[number]? = some page ↔ number < file.pageCount after ∧ page = file.page after number := by
  obtain ⟨known, _, loaded, same⟩ := openAt_eq_ok opened
  rw [same] at backed
  cases backed
  obtain ⟨length_eq, each⟩ := loadPages_eq_ok loaded
  have own (found : Page) (present : heap.pages[number]? = some found) :
      found = PageFile.page ⟨path, known⟩ after number := by
    obtain ⟨_, read, _⟩ := loadPage_eq_ok (each number found present)
    rw [Nat.zero_add] at read
    exact ((Page.ofBlock_eq_ok_iff _ _).mp read).1
  constructor
  · intro present
    have inside := (List.getElem?_eq_some_iff.mp present).1
    exact ⟨length_eq ▸ inside, own page present⟩
  · rintro ⟨inside, rfl⟩
    have present := List.getElem?_eq_getElem (length_eq.symm ▸ inside)
    rw [present, own _ present]

theorem bytesAt?_of_openAt (opened : (openAt schema path).runOn disk = (.ok heap, after))
    (backed : heap.backing = some file) (id : RowId) (bytes : List UInt8) :
    heap.bytesAt? id = some bytes ↔ file.Holds after id bytes := by
  simp only [bytesAt?, Option.bind_eq_some_iff, getElem?_of_openAt opened backed,
    Page.get?_eq_some_iff_within, PageFile.Holds]
  constructor
  · rintro ⟨_, ⟨counted, rfl⟩, slot, given, kept, within, same⟩
    exact ⟨slot, ⟨counted, given, kept⟩, within, same⟩
  · rintro ⟨slot, ⟨counted, given, kept⟩, within, same⟩
    exact ⟨_, ⟨counted, rfl⟩, slot, given, kept, within, same⟩

theorem schema_of_openAt (opened : (openAt schema path).runOn disk = (.ok heap, after)) :
    heap.schema = schema := by
  obtain ⟨_, _, _, same⟩ := openAt_eq_ok opened
  rw [same]
  rfl

theorem decode_eq_ok_iff (heap : HeapFile) (bytes : List UInt8) (row : Row) :
    heap.decode bytes = .ok row ↔ Row.decode heap.schema bytes = .ok row :=
  Outcome.mapError_eq_ok_iff

/-- What a scan does with an entry. -/
theorem read_eq_ok_iff (heap : HeapFile) (entry : RowId × List UInt8) (id : RowId) (row : Row) :
    (do return (entry.1, ← heap.decode entry.2) : Except StorageError (RowId × Row)) = .ok (id, row) ↔
      entry.1 = id ∧ Row.decode heap.schema entry.2 = .ok row := by
  rw [← decode_eq_ok_iff]
  cases heap.decode entry.2 with
  | error error => simp [bind, Except.bind]
  | ok found => simp [bind, Except.bind, pure, Except.pure]

theorem map_fst_of_scanWithIds (scanned : heap.scanWithIds = .ok rows) :
    rows.map Prod.fst = heap.entries.map Prod.fst := by
  have read := (Outcome.mapM_eq_ok_iff _ _ _).mp scanned
  clear scanned
  generalize heap.entries = entries at read ⊢
  induction read with
  | nil => rfl
  | cons first _ ih =>
    rw [List.map_cons, List.map_cons, ih, ((read_eq_ok_iff heap _ _ _).mp first).1]

/-- A scan has an entry for each address with bytes, whatever they spell. -/
theorem mem_map_fst_of_scanWithIds (scanned : heap.scanWithIds = .ok rows) (id : RowId) :
    id ∈ rows.map Prod.fst ↔ ∃ bytes, heap.bytesAt? id = some bytes := by
  simp only [map_fst_of_scanWithIds scanned, List.mem_map, Prod.exists, exists_and_right,
    exists_eq_right, mem_entries]

/-- A scan lists rows in the order of their addresses, so each once. -/
theorem pairwise_of_scanWithIds (scanned : heap.scanWithIds = .ok rows) :
    rows.Pairwise fun first second => first.1.Before second.1 := by
  have ordered := List.pairwise_map.mpr heap.pairwise_entries
  rw [← map_fst_of_scanWithIds scanned] at ordered
  exact List.pairwise_map.mp ordered

/-- A scan lists the rows that the bytes of the heap spell, and nothing else. -/
theorem mem_of_scanWithIds (scanned : heap.scanWithIds = .ok rows) (id : RowId) (row : Row) :
    (id, row) ∈ rows ↔
      ∃ bytes, heap.bytesAt? id = some bytes ∧ Row.decode heap.schema bytes = .ok row := by
  constructor
  · intro listed
    obtain ⟨entry, member, read⟩ := Outcome.exists_of_mem_mapM scanned listed
    obtain ⟨rfl, decoded⟩ := (read_eq_ok_iff heap entry id row).mp read
    exact ⟨entry.2, (heap.mem_entries _ _).mp member, decoded⟩
  · rintro ⟨bytes, found, decoded⟩
    exact Outcome.mem_of_mapM_eq_ok scanned ((heap.mem_entries id bytes).mpr found)
      ((read_eq_ok_iff heap (id, bytes) id row).mpr ⟨rfl, decoded⟩)

/-- A scan fails for bytes that spell no row, and for nothing else. -/
theorem scanWithIds_fails_iff (heap : HeapFile) :
    (∃ error, heap.scanWithIds = .error error) ↔
      ∃ id bytes fault, heap.bytesAt? id = some bytes ∧ Row.decode heap.schema bytes = .error fault := by
  constructor
  · rintro ⟨error, failed⟩
    obtain ⟨⟨id, bytes⟩, member, faulty⟩ := Outcome.exists_of_mapM_eq_error failed
    cases decoded : Row.decode heap.schema bytes with
    | error fault => exact ⟨id, bytes, fault, (heap.mem_entries id bytes).mp member, decoded⟩
    | ok row =>
      cases ((read_eq_ok_iff heap (id, bytes) id row).mpr ⟨rfl, decoded⟩).symm.trans faulty
  · rintro ⟨id, bytes, fault, found, decoded⟩
    cases scanned : heap.scanWithIds with
    | error error => exact ⟨error, rfl⟩
    | ok rows =>
      obtain ⟨⟨other, row⟩, read⟩ :=
        Outcome.exists_of_mapM_eq_ok scanned ((heap.mem_entries id bytes).mpr found)
      cases decoded.symm.trans ((read_eq_ok_iff heap (id, bytes) other row).mp read).2

/-- A scan that passes over nothing: if it succeeds, it lists each entry of the slot directories that is
not marked as deleted once, and it fails if one of them names bytes beyond its page. -/
structure ScansAll (heap : HeapFile) (file : PageFile) (disk : Disk) : Prop where
  listed : ∀ rows, heap.scanWithIds = .ok rows → (rows.map Prod.fst).Nodup ∧
    ∀ id, id ∈ rows.map Prod.fst ↔ ∃ slot, file.Enters disk id slot
  reported : ∀ id, file.Outlying disk id → ∃ error, heap.scanWithIds = .error error

/-- What scanning an opened file does, whatever the file holds behind the heads of its pages. The rows
that are on their pages are listed in order, unless one of them cannot be read. So a scan that succeeds
has passed over nothing exactly if no entry names bytes beyond its page. -/
theorem scansAll_iff (opened : (openAt schema path).runOn disk = (.ok heap, after))
    (backed : heap.backing = some file) :
    (∀ rows, heap.scanWithIds = .ok rows →
      rows.Pairwise (fun first second => first.1.Before second.1) ∧
      ∀ id row, (id, row) ∈ rows ↔
        ∃ bytes, file.Holds after id bytes ∧ Row.decode schema bytes = .ok row) ∧
    ((∃ error, heap.scanWithIds = .error error) ↔
      ∃ id bytes fault, file.Holds after id bytes ∧ Row.decode schema bytes = .error fault) ∧
    (heap.ScansAll file after ↔
      (∀ id, ¬ file.Outlying after id) ∨ ∃ error, heap.scanWithIds = .error error) := by
  have bytes_iff := bytesAt?_of_openAt opened backed
  have fails_iff := heap.scanWithIds_fails_iff
  simp only [bytes_iff, schema_of_openAt opened] at fails_iff
  have mem_iff (rows) (scanned : heap.scanWithIds = .ok rows) (id : RowId) (row : Row) :
      (id, row) ∈ rows ↔
        ∃ bytes, file.Holds after id bytes ∧ Row.decode schema bytes = .ok row := by
    rw [mem_of_scanWithIds scanned, schema_of_openAt opened]
    simp only [bytes_iff]
  refine ⟨fun rows scanned => ⟨pairwise_of_scanWithIds scanned, mem_iff rows scanned⟩, fails_iff, ?_⟩
  constructor
  · intro scansAll
    refine or_iff_not_imp_right.mpr fun works id outlying => ?_
    exact works (scansAll.reported id outlying)
  · rintro (inside | ⟨error, failed⟩)
    · refine ⟨fun rows scanned => ⟨?distinct, fun id => ?entered⟩, fun id outlying => ?_⟩
      case distinct =>
        exact List.pairwise_map.mpr ((pairwise_of_scanWithIds scanned).imp RowId.Before.ne)
      case entered =>
        -- no entry is outlying, so each of them names the bytes that the scan reads there
        rw [mem_map_fst_of_scanWithIds scanned]
        simp only [bytes_iff]
        rw [PageFile.exists_holds_iff, and_iff_left (inside id)]
      · exact absurd outlying (inside id)
    · refine ⟨fun rows scanned => ?_, fun _ _ => ⟨error, failed⟩⟩
      cases failed.symm.trans scanned

/-- A table of numbers. -/
def numbers : Schema := ⟨"t", [.ofType "a" .int]⟩

/-- A disk whose only file has a page with one row, as its head says, and an entry for that row which
names the bytes from some position on. -/
def diskOfEntry (start : Nat) : Disk :=
  let bytes := (Row.encode numbers [.int 7]).toOption.getD []
  let page := (Page.empty 0).write 4000 bytes
  let page := page.write (Page.slotPosition 0) (Slot.bytes ⟨start, bytes.length⟩)
  let page := (page.write 2 (Bytes.ofNat 2 4000)).write 0 (Bytes.ofNat 2 1)
  (Disk.empty.addFile ["T.dat"] (Contents.empty.writeBlock 0 page.block)).2

/-- The file of such a disk. -/
def fileOfEntry : PageFile := ⟨"T.dat", 0⟩

/-- The disk once its file was opened. -/
def afterOpening (start : Nat) : Disk := ((openAt numbers "T.dat").runOn (diskOfEntry start)).2

/-- What is seen of such a disk: what a scan of the opened heap lists, and the entries of its file. -/
def Sees (start : Nat) (listed : List (RowId × Row)) : Prop :=
  ((openAt numbers "T.dat").runOn (diskOfEntry start)).1.toOption.map
      (fun heap => (heap.backing, heap.scanWithIds.toOption)) = some (some fileOfEntry, some listed) ∧
    fileOfEntry.pageCount (afterOpening start) = 1 ∧
    (fileOfEntry.page (afterOpening start) 0).slotCount = 1 ∧
    (fileOfEntry.page (afterOpening start) 0).slot? 0 = some ⟨start, 9⟩

instance (start : Nat) (listed : List (RowId × Row)) : Decidable (Sees start listed) :=
  inferInstanceAs (Decidable (_ ∧ _ ∧ _ ∧ _))

theorem Sees.opened {start : Nat} (sees : Sees start rows) :
    ∃ heap, (openAt numbers "T.dat").runOn (diskOfEntry start) = (.ok heap, afterOpening start) ∧
      heap.backing = some fileOfEntry ∧ heap.scanWithIds = .ok rows := by
  have scanned := sees.1
  rw [afterOpening]
  -- nothing below is computed on the disk
  generalize (openAt numbers "T.dat").runOn (diskOfEntry start) = outcome at scanned ⊢
  obtain ⟨result, after⟩ := outcome
  obtain ⟨heap, opened, same⟩ := Option.map_eq_some_iff.mp scanned
  obtain rfl := (toOption_eq_some_iff _ _).mp opened
  simp only [Prod.mk.injEq, toOption_eq_some_iff] at same
  exact ⟨heap, rfl, same⟩

theorem Sees.enters_iff {start : Nat} (sees : Sees start rows) (live : start ≠ Slot.deletedMark)
    (id : RowId) (slot : Slot) :
    fileOfEntry.Enters (afterOpening start) id slot ↔ id = ⟨0, 0⟩ ∧ slot = ⟨start, 9⟩ := by
  obtain ⟨_, pages, slots, entry⟩ := sees
  constructor
  · obtain ⟨page, index⟩ := id
    rintro ⟨counted, given, _⟩
    obtain rfl : page = 0 := Nat.lt_one_iff.mp (pages ▸ counted)
    obtain rfl : index = 0 := Nat.lt_one_iff.mp (slots ▸ Page.lt_slotCount_of_slot? given)
    exact ⟨rfl, Option.some.inj (given.symm.trans entry)⟩
  · rintro ⟨rfl, rfl⟩
    exact ⟨pages ▸ Nat.one_pos, entry, by simpa [Slot.isDeleted] using live⟩

theorem sees_entry_within : Sees 4000 [(⟨0, 0⟩, [.int 7])] := by decide +kernel

theorem sees_entry_beyond : Sees 5000 [] := by decide +kernel

/-- A file whose only entry names bytes of its page is scanned as a whole. -/
theorem scansAll_entry_within :
    ∃ heap, (openAt numbers "T.dat").runOn (diskOfEntry 4000) = (.ok heap, afterOpening 4000) ∧
      heap.backing = some fileOfEntry ∧ heap.scanWithIds = .ok [(⟨0, 0⟩, [.int 7])] ∧
      heap.ScansAll fileOfEntry (afterOpening 4000) := by
  obtain ⟨heap, opened, backed, scanned⟩ := sees_entry_within.opened
  refine ⟨heap, opened, backed, scanned, (scansAll_iff opened backed).2.2.mpr (.inl ?_)⟩
  rintro id ⟨slot, enters, beyond⟩
  obtain ⟨rfl, rfl⟩ := (sees_entry_within.enters_iff (by decide) id slot).mp enters
  exact absurd beyond (by decide)

/-- A file whose only entry names bytes beyond its page is opened, and scanned without a row and without
an error. -/
theorem not_scansAll_entry_beyond :
    ∃ heap, (openAt numbers "T.dat").runOn (diskOfEntry 5000) = (.ok heap, afterOpening 5000) ∧
      heap.backing = some fileOfEntry ∧ fileOfEntry.Outlying (afterOpening 5000) ⟨0, 0⟩ ∧
      heap.scanWithIds = .ok [] ∧ ¬ heap.ScansAll fileOfEntry (afterOpening 5000) := by
  obtain ⟨heap, opened, backed, scanned⟩ := sees_entry_beyond.opened
  have outlying : fileOfEntry.Outlying (afterOpening 5000) ⟨0, 0⟩ :=
    ⟨_, (sees_entry_beyond.enters_iff (by decide) _ _).mpr ⟨rfl, rfl⟩, by decide⟩
  refine ⟨heap, opened, backed, outlying, scanned, fun scansAll => ?_⟩
  obtain ⟨error, failed⟩ := scansAll.reported _ outlying
  cases failed.symm.trans scanned

end HeapFile

end RowStore
