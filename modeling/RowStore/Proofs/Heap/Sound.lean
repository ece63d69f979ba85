import RowStore.Proofs.Heap.Entries
import RowStore.Proofs.Row.RoundTrip

/-!
Sound heaps: their pages are sound and carry their own numbers, and the free-space map tells the free
space of each. On a sound heap the bytes of a row find their place whenever a page can hold them, and
no other row is touched.
-/

namespace RowStore.HeapFile

variable {heap next : HeapFile} {bytes : List UInt8} {number : Nat} {page : Page}

/-- The free-space map tells the free space of each page, and every page is sound and carries its
number, of which a page keeps 32 bits. -/
structure Sound (heap : HeapFile) : Prop where
  map_exact : heap.freeSpace.free = heap.pages.map Page.freeSpace
  page_sound : ∀ (number : Nat) (page : Page), heap.pages[number]? = some page → page.Sound
  page_number : ∀ (number : Nat) (page : Page), heap.pages[number]? = some page →
    page.number = number % UInt32.size

/-- What is left of soundness when nothing is known of the rows on the pages, as on pages that are read
from any file. -/
structure Ordered (heap : HeapFile) : Prop where
  map_exact : heap.freeSpace.free = heap.pages.map Page.freeSpace
  in_order : ∀ (number : Nat) (page : Page), heap.pages[number]? = some page → page.InOrder
  page_number : ∀ (number : Nat) (page : Page), heap.pages[number]? = some page →
    page.number = number % UInt32.size

theorem Sound.ordered (sound : heap.Sound) : heap.Ordered :=
  ⟨sound.map_exact, fun number page found => (sound.page_sound number page found).toInOrder,
    sound.page_number⟩

/-- A heap without pages is sound, whatever file is behind it. -/
theorem sound_empty (schema : Schema) (backing : Option PageFile) :
    (⟨schema, [], .empty, backing⟩ : HeapFile).Sound := ⟨rfl, by simp, by simp⟩

/-- The page of a number, which is empty where there is none yet. -/
def pageAt (heap : HeapFile) (number : Nat) : Page := heap.pages[number]?.getD (.empty number)

theorem Sound.pageAt_sound (sound : heap.Sound) (number : Nat) : (heap.pageAt number).Sound := by
  rw [pageAt]
  cases found : heap.pages[number]? with
  | none => exact Page.sound_empty number
  | some page => exact sound.page_sound number page found

namespace Ordered

theorem pageAt_inOrder (ordered : heap.Ordered) (number : Nat) : (heap.pageAt number).InOrder := by
  rw [pageAt]
  cases found : heap.pages[number]? with
  | none => exact (Page.sound_empty number).toInOrder
  | some page => exact ordered.in_order number page found

theorem pageAt_number (ordered : heap.Ordered) (number : Nat) :
    (heap.pageAt number).number = number % UInt32.size := by
  rw [pageAt]
  cases found : heap.pages[number]? with
  | none => exact Page.number_empty number
  | some page => exact ordered.page_number number page found

end Ordered

theorem bytesAt?_eq (heap : HeapFile) (id : RowId) :
    heap.bytesAt? id = (heap.pageAt id.page).get? id.slot := by
  rw [bytesAt?, pageAt]
  cases heap.pages[id.page]? with
  | none =>
    rw [Option.bind_none, Option.getD_none, Page.get?, Page.slot?_eq_none]
    rw [Page.slotCount_empty]
    exact Nat.zero_le _
  | some page => rfl

/-- Whether a slot has been given out, for a row that may have been deleted since. -/
def HasSlot (heap : HeapFile) (id : RowId) : Prop := id.slot < (heap.pageAt id.page).slotCount

theorem hasSlot_of_bytesAt? {id : RowId} (found : heap.bytesAt? id = some bytes) :
    heap.HasSlot id := by
  rw [bytesAt?_eq] at found
  obtain ⟨entry, given, _⟩ := (Page.isLive_iff _ _).mp (Page.isLive_of_get? _ found)
  exact Page.lt_slotCount_of_slot? given

/-- What becomes of a heap when one of its pages is exchanged, or one is added behind the last. -/
structure Replaced (heap : HeapFile) (number : Nat) (page : Page) (next : HeapFile) : Prop where
  schema_eq : next.schema = heap.schema
  backing_eq : next.backing = heap.backing
  number_le : number ≤ heap.pages.length
  length_eq : next.pages.length = max heap.pages.length (number + 1)
  page_new : next.pages[number]? = some page
  page_other : ∀ other, other ≠ number → next.pages[other]? = heap.pages[other]?
  map_exact : heap.freeSpace.free = heap.pages.map Page.freeSpace →
    next.freeSpace.free = next.pages.map Page.freeSpace

theorem replaced_setPage (heap : HeapFile) (number : Nat) (page : Page)
    (inside : number < heap.pages.length) : Replaced heap number page (heap.setPage number page) := by
  constructor
  case schema_eq => rfl
  case backing_eq => rfl
  case number_le => exact Nat.le_of_lt inside
  case length_eq =>
    simp only [setPage, List.length_set]
    omega
  case page_new => simp [setPage, inside]
  case page_other =>
    intro other different
    simp only [setPage, List.getElem?_set_ne (Ne.symm different)]
  case map_exact =>
    intro exact
    simp only [setPage, FreeSpaceMap.update, exact, List.map_set]

theorem replaced_addPage (heap : HeapFile) (page : Page) :
    Replaced heap heap.pages.length page (heap.addPage page) := by
  constructor
  case schema_eq => rfl
  case backing_eq => rfl
  case number_le => exact Nat.le_refl _
  case length_eq => simp [addPage]
  case page_new => simp [addPage]
  case page_other =>
    intro other different
    simp only [addPage]
    by_cases inside : other < heap.pages.length
    · rw [List.getElem?_append_left inside]
    · rw [List.getElem?_eq_none, List.getElem?_eq_none]
      · omega
      · rw [List.length_append, List.length_singleton]
        omega
  case map_exact =>
    intro exact
    simp [addPage, FreeSpaceMap.add, exact]

namespace Replaced

theorem length_le (replaced : Replaced heap number page next) :
    next.pages.length ≤ heap.pages.length + 1 := by
  have length_eq := replaced.length_eq
  have number_le := replaced.number_le
  omega

theorem pageAt_new (replaced : Replaced heap number page next) : next.pageAt number = page := by
  rw [pageAt, replaced.page_new, Option.getD_some]

theorem pageAt_other (replaced : Replaced heap number page next) {other : Nat}
    (different : other ≠ number) : next.pageAt other = heap.pageAt other := by
  rw [pageAt, pageAt, replaced.page_other other different]

theorem ordered (replaced : Replaced heap number page next) (ordered : heap.Ordered)
    (inOrder : page.InOrder) (pageNumber : page.number = (heap.pageAt number).number) :
    next.Ordered := by
  have either (other : Nat) (found : Page) (present : next.pages[other]? = some found) :
      other = number ∧ found = page ∨ heap.pages[other]? = some found := by
    by_cases same : other = number
    · rw [same, replaced.page_new] at present
      exact .inl ⟨same, (Option.some.inj present).symm⟩
    · exact .inr ((replaced.page_other other same).symm.trans present)
  refine ⟨replaced.map_exact ordered.map_exact, ?in_order, ?page_number⟩
  case in_order =>
    intro other found present
    rcases either other found present with ⟨rfl, rfl⟩ | kept
    · exact inOrder
    · exact ordered.in_order other found kept
  case page_number =>
    intro other found present
    rcases either other found present with ⟨rfl, rfl⟩ | kept
    · rw [pageNumber, ordered.pageAt_number]
    · exact ordered.page_number other found kept

theorem sound (replaced : Replaced heap number page next) (sound : heap.Sound)
    (pageSound : page.Sound) (pageNumber : page.number = (heap.pageAt number).number) :
    next.Sound := by
  have kept := replaced.ordered sound.ordered pageSound.toInOrder pageNumber
  refine ⟨kept.map_exact, fun other found present => ?_, kept.page_number⟩
  by_cases same : other = number
  · rw [same, replaced.page_new] at present
    exact Option.some.inj present ▸ pageSound
  · rw [replaced.page_other other same] at present
    exact sound.page_sound other found present

end Replaced

end RowStore.HeapFile
