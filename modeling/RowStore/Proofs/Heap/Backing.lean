import RowStore.Proofs.Disk.Touching
import RowStore.Proofs.Heap.Loading

/-!
The file behind a heap. It holds the pages of the heap block by block, whatever rows are on them and
whatever lies behind the last whole block, so that opening the file gives the heap again.
-/

namespace RowStore

/-- A disk that has no file at a place, or one whose pages can be numbered with 32 bits. -/
def Disk.FewPagesAt (location : Location) (disk : Disk) : Prop :=
  ∀ number, disk.node? location = some (.file number) →
    (disk.contents number).size / blockSize < UInt32.size

instance (location : Location) (disk : Disk) : Decidable (disk.FewPagesAt location) :=
  match found : disk.node? location with
  | some (.file number) =>
    decidable_of_iff ((disk.contents number).size / blockSize < UInt32.size)
      ⟨fun few other same => by cases found.symm.trans same; exact few, fun few => few number found⟩
  | some .directory => isTrue fun number same => by cases found.symm.trans same
  | none => isTrue fun number same => by cases found.symm.trans same

/-- Opening a file puts an empty one in a place at most. -/
theorem Disk.Opens.fewPagesAt {disk after : Disk} {path : String} {location : Location}
    {result : Except DiskFault Nat} (intact : disk.Intact) (opens : Opens path false disk result after)
    (few : disk.FewPagesAt location) : after.FewPagesAt location := by
  have furnish {middle : Disk} (furnished : Furnished disk middle) : middle.FewPagesAt location := by
    intro number found
    rw [furnished.contents_eq]
    rcases furnished.gained location _ found with earlier | new
    · exact few number earlier
    · cases new
  cases opens with
  | failed fault after furnished => exact furnish furnished
  | present middle number furnished holds => exact furnish furnished
  | created middle furnished leads free =>
    intro number found
    rw [node?_addFile middle leads.locate_ne_nil] at found
    rw [contents_addFile]
    split at found
    · cases found
      rw [if_pos rfl]
      exact (by decide : 0 / blockSize < UInt32.size)
    · rw [if_neg (Nat.ne_of_lt (furnished.intact intact _ _ found))]
      exact furnish furnished number found

namespace HeapFile

open Disk (Holds Opens Spares Touches)

variable {heap next other : HeapFile} {disk after : Disk} {file : PageFile} {number : Nat} {page : Page}
  {schema : Schema} {path : String}

/-- A heap whose pages are the whole blocks of the file behind it. -/
structure Backed (heap : HeapFile) (file : PageFile) (disk : Disk) : Prop where
  ordered : heap.Ordered
  backing_eq : heap.backing = some file
  holds : Holds disk file.path file.file
  known : file.file < disk.files.size
  count_eq : (disk.contents file.file).size / blockSize = heap.pages.length
  block_eq : ∀ (number : Nat) (page : Page), heap.pages[number]? = some page →
    (disk.contents file.file).block number = page.block

theorem contents_afterWrite (backing : heap.backing = some file) (known : file.file < disk.files.size)
    (number : Nat) (page : Page) :
    (afterWrite heap number page disk).contents file.file =
      (disk.contents file.file).writeBlock number page.block := by
  have counted : file.file < (afterRefusal disk).files.size := known
  rw [afterWrite, backing]
  exact (Disk.contents_modifyContents _ _ _ counted _).trans (if_pos rfl)

namespace Backed

theorem spared (backed : Backed heap file disk)
    (spares : Spares (Disk.locate file.path) file.file disk after) : Backed heap file after := by
  have contents := spares.contents_eq backed.known
  constructor
  case ordered => exact backed.ordered
  case backing_eq => exact backed.backing_eq
  case holds => exact backed.holds.spared spares
  case known => exact spares.known backed.known
  case count_eq => rw [contents]; exact backed.count_eq
  case block_eq => rw [contents]; exact backed.block_eq

theorem touched {places : Set Location} (backed : Backed heap file disk)
    (touches : Touches places disk after) (elsewhere : Disk.locate file.path ∉ places) :
    Backed heap file after := backed.spared (touches.spares elsewhere backed.holds.entry)

theorem touched_free (backed : Backed heap file disk) (touches : Touches disk.free disk after) :
    Backed heap file after :=
  backed.touched touches fun free => by cases backed.holds.entry.symm.trans free

/-- A page that is exchanged in memory and written to the file is the same in both. -/
theorem afterWrite (backed : Backed heap file disk) (replaced : Replaced heap number page next)
    (ordered : next.Ordered) : Backed next file (afterWrite heap number page disk) := by
  have contents := contents_afterWrite backed.backing_eq backed.known number page
  have write : HeapFile.afterWrite heap number page disk =
      (afterRefusal disk).modifyContents file.file (·.writeBlock number page.block) := by
    rw [HeapFile.afterWrite, backed.backing_eq]
  constructor
  case ordered => exact ordered
  case backing_eq => rw [replaced.backing_eq, backed.backing_eq]
  case holds => rw [write]; exact ⟨backed.holds.toLeads.of_kept fun _ found => found, backed.holds.entry⟩
  case known => rw [write, Disk.size_files_modifyContents]; exact backed.known
  case count_eq =>
    have count_eq := backed.count_eq
    rw [contents, replaced.length_eq, Contents.writeBlock]
    simp only [blockSize] at count_eq ⊢
    omega
  case block_eq =>
    intro other found present
    rw [contents, Contents.block_writeBlock]
    split
    · rename_i same
      rw [same, replaced.page_new] at present
      rw [Option.some.inj present]
    · rename_i different
      rw [replaced.page_other other different] at present
      exact backed.block_eq other found present

theorem loadPage_eq (backed : Backed heap file disk) (few : heap.pages.length < UInt32.size)
    (present : heap.pages[number]? = some page) : loadPage file disk number = .ok page := by
  have inside := (List.getElem?_eq_some_iff.mp present).1
  have whole : (number + 1) * blockSize ≤ (disk.contents file.file).size := by
    rw [← backed.count_eq] at inside
    exact (Nat.le_div_iff_mul_le (by decide)).mp inside
  have own : page.number = number := by
    rw [backed.ordered.page_number number page present]
    exact Nat.mod_eq_of_lt (Nat.lt_trans inside few)
  have read : file.readPage disk number = .ok page.block := by
    simp only [PageFile.readPage, if_pos whole, backed.block_eq number page present]
  have loaded := (Page.ofBlock_eq_ok_iff page.block page).mpr
    ⟨rfl, backed.ordered.in_order number page present⟩
  simp [loadPage, read, loaded, own, Except.mapError, bind, Except.bind, pure, Except.pure]

theorem loadPages_eq (backed : Backed heap file disk) (few : heap.pages.length < UInt32.size)
    (start count : Nat) (last : start + count = heap.pages.length) :
    loadPages file disk start count = .ok (heap.pages.drop start) := by
  induction count generalizing start with
  | zero =>
    rw [loadPages, List.drop_eq_nil_of_le (by omega)]
  | succ count ih =>
    have inside : start < heap.pages.length := by omega
    have present := List.getElem?_eq_getElem inside
    simp only [loadPages, backed.loadPage_eq few present, ih (start + 1) (by omega), bind,
      Except.bind, pure, Except.pure, List.drop_eq_getElem_cons inside]

/-- Opening the file gives the heap again, page by page and with the same map. -/
theorem runOn_openAt (backed : Backed heap file disk) (few : heap.pages.length < UInt32.size) :
    (openAt heap.schema file.path).runOn disk = (.ok heap, disk) := by
  have count : file.pageCount disk = heap.pages.length := by
    rw [PageFile.pageCount, backed.count_eq, Nat.mod_eq_of_lt few]
  have pages := backed.loadPages_eq few 0 heap.pages.length (Nat.zero_add _)
  have opened : (PageFile.openAt file.path).runOn disk = (.ok file, disk) := by
    simp only [PageFile.openAt, Step.runOn_bind, backed.holds.runOn_openFile, Step.runOn_pure]
  have same : ofPages heap.schema heap.pages (some file) = heap := by
    rw [ofPages, ← backed.ordered.map_exact, ← backed.backing_eq]
  simp only [openAt, Step.runOn_bind, Step.runOn_mapError, Step.runOn_get, Step.runOn_ofExcept,
    Step.runOn_pure, opened, count, pages, Except.mapError, List.drop_zero, same]

/-- Two heaps with one schema and one file are the same. -/
theorem eq_of_backed (backed : Backed heap file disk) (beside : Backed other file disk)
    (schema_eq : other.schema = heap.schema) : other = heap := by
  have length_eq : other.pages.length = heap.pages.length :=
    beside.count_eq.symm.trans backed.count_eq
  have pages_eq : other.pages = heap.pages := by
    apply List.ext_getElem length_eq
    intro number first second
    have one := beside.block_eq number _ (List.getElem?_eq_getElem first)
    have two := backed.block_eq number _ (List.getElem?_eq_getElem second)
    exact congrArg Page.mk (one.symm.trans two)
  have map_eq : other.freeSpace = heap.freeSpace :=
    congrArg FreeSpaceMap.mk (by rw [beside.ordered.map_exact, pages_eq, backed.ordered.map_exact])
  have backing_eq := beside.backing_eq.trans backed.backing_eq.symm
  obtain ⟨schema, pages, freeSpace, backing⟩ := heap
  obtain ⟨_, _, _, _⟩ := other
  cases schema_eq
  cases pages_eq
  cases map_eq
  cases backing_eq
  rfl

end Backed

/-- A heap without pages is backed by a file that was emptied for it. -/
theorem backed_of_opens {before : Disk} (intact : before.Intact)
    (opens : Opens path true before (.ok number) disk) (schema : Schema) :
    Backed ⟨schema, [], .empty, some ⟨path, number⟩⟩ ⟨path, number⟩ disk := by
  obtain ⟨holds, known, empty⟩ := opens.holds intact
  refine ⟨(sound_empty schema _).ordered, rfl, holds, known, ?_, by simp⟩
  rw [empty rfl]
  exact Nat.zero_div blockSize

/-- A heap that is opened is backed by the file that it is opened from, whatever is in the file. -/
theorem backed_of_openAt (intact : disk.Intact)
    (opened : (openAt schema path).runOn disk = (.ok heap, after))
    (few : after.FewPagesAt (Disk.locate path)) :
    ∃ number, Backed heap ⟨path, number⟩ after := by
  obtain ⟨number, opens, loaded, heap_eq⟩ := openAt_eq_ok opened
  obtain ⟨holds, known, _⟩ := opens.holds intact
  obtain ⟨length_eq, each⟩ := loadPages_eq_ok loaded
  have whole := few number holds.entry
  have count_eq : (after.contents number).size / blockSize = heap.pages.length := by
    rw [length_eq, PageFile.pageCount, Nat.mod_eq_of_lt whole]
  refine ⟨number, ordered_of_openAt opened, by rw [heap_eq]; rfl, holds, known, count_eq, ?_⟩
  intro position page present
  have loaded := each position page present
  rw [Nat.zero_add] at loaded
  rw [((Page.ofBlock_eq_ok_iff _ _).mp (loadPage_eq_ok loaded).2.1).1]

end HeapFile

end RowStore
