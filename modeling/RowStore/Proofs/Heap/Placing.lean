import RowStore.Proofs.Heap.History
import RowStore.Proofs.Heap.Lasting
import RowStore.Proofs.Heap.Loading

/-!
Where rows come to lie. In every heap that there can be the free-space map tells the free space of each
page, so that a row goes to the first page with room for it, and to a new page only if there is none.
-/

namespace RowStore.HeapFile

variable {heap : HeapFile} {bytes : List UInt8} {row : Row} {disk : Disk}

/-- A heap as calls leave it, that was new at first or opened from a file. Every call may find another
disk, which may refuse its writes. -/
inductive Reached : HeapFile → Prop where
  | fresh (schema : Schema) (heap : HeapFile) (disk : Disk) (fresh : Fresh schema heap disk) :
      Reached heap
  | opened (schema : Schema) (path : String) (heap : HeapFile) (disk after : Disk)
      (ran : (openAt schema path).runOn disk = (.ok heap, after)) : Reached heap
  | called (heap : HeapFile) (call : Call) (disk : Disk) (earlier : Reached heap) :
      Reached (call.perform (heap, disk)).2.1

theorem Reached.insert (reached : Reached heap) (row : Row) (disk : Disk) :
    Reached ((HeapFile.insert row).runOn (heap, disk)).2.1 := .called heap (.insert row) disk reached

/-- Pages are in order after any calls. -/
theorem Reached.ordered (reached : Reached heap) : heap.Ordered := by
  induction reached with
  | fresh schema heap disk fresh =>
    obtain ⟨backing, rfl⟩ := fresh.eq_empty
    exact (sound_empty schema backing).ordered
  | opened schema path heap disk after ran => exact ordered_of_openAt ran
  | called heap call disk _ ordered =>
    cases call with
    | insert row => exact (ordered.insert disk row).1.ordered
    | delete id => exact (ordered.delete disk id).1.ordered

/-- Bytes that have come to lie on the first page with room for them, or on a new page behind the last if
there is none. They take the next slot of the page and as much of its room as they and the slot need, and
no other page has changed. -/
structure FirstFit (heap : HeapFile) (bytes : List UInt8) (id : RowId) (next : HeapFile) : Prop where
  lowest : ∀ number page, heap.pages[number]? = some page → number < id.page →
    page.freeSpace < bytes.length + slotSize
  room : ∀ page, heap.pages[id.page]? = some page → bytes.length + slotSize ≤ page.freeSpace
  page_le : id.page ≤ heap.pages.length
  new_iff : id.page = heap.pages.length ↔
    ∀ page ∈ heap.pages, page.freeSpace < bytes.length + slotSize
  length_eq : next.pages.length = max heap.pages.length (id.page + 1)
  slot_eq : id.slot = (heap.pageAt id.page).slotCount
  inserted : Page.Inserted (heap.pageAt id.page) bytes (next.pageAt id.page)
  freeSpace_eq : (next.pageAt id.page).freeSpace + (bytes.length + slotSize) =
    (heap.pageAt id.page).freeSpace
  pages_other : ∀ number, number ≠ id.page → next.pages[number]? = heap.pages[number]?

/-- The heap without its last pages, in the map as well. -/
def truncate (heap : HeapFile) (count : Nat) : HeapFile :=
  { heap with pages := heap.pages.take count, freeSpace := heap.freeSpace.truncate count }

/-- Rows are placed by the free-space map alone, which is right about each page: the page that it names
has room, and a row that can be encoded has room on a new page. A row that is taken lies on the first page
with room, and one that is not taken leaves the heap as it was; nothing else comes of entering the old page
again, or of cutting off the new one. -/
structure PlacesFirstFit (heap : HeapFile) : Prop where
  map_exact : heap.freeSpace.free = heap.pages.map Page.freeSpace
  room_named : ∀ bytes number, heap.freeSpace.find? (bytes.length + slotSize) = some number →
    ∃ page placed, heap.pages[number]? = some page ∧ page.insert? bytes = some placed
  room_new : ∀ row bytes, heap.encode row = .ok bytes →
    ∃ placed, (Page.empty heap.pages.length).insert? bytes = some placed
  taken : ∀ row disk id next after, (insert row).runOn (heap, disk) = (.ok id, next, after) →
    ∃ bytes, heap.encode row = .ok bytes ∧ FirstFit heap bytes id next
  refused : ∀ row disk error next after,
    (insert row).runOn (heap, disk) = (.error error, next, after) →
      next = heap ∧ (heap.encode row = .error error ∨
        Refused heap disk ∧ error = .disk .writesRefused)
  entered_again : ∀ number old page, heap.pages[number]? = some old →
    (heap.setPage number page).setPage number old = heap
  cut_off : ∀ page, (heap.addPage page).truncate heap.pages.length = heap

/-- What is looked up in the map is looked up in the pages. -/
theorem Ordered.find?_eq (ordered : heap.Ordered) (needed : Nat) :
    (heap.freeSpace.find? needed).getD heap.pages.length =
      heap.pages.findIdx fun page => needed ≤ page.freeSpace := by
  rw [FreeSpaceMap.find?, ordered.map_exact, List.findIdx?_map, ← List.findIdx_eq_getD_findIdx?]
  rfl

/-- What is placed where the map says lies on the first page with room. -/
theorem Placed.firstFit {change : Change RowId} (placed : Placed heap bytes change)
    (ordered : heap.Ordered)
    (named : change.page = (heap.freeSpace.find? (bytes.length + slotSize)).getD heap.pages.length) :
    FirstFit heap bytes change.answer change.heap := by
  obtain ⟨next, number, answer⟩ := change
  obtain rfl : answer = ⟨number, (heap.pageAt number).slotCount⟩ := placed.answer_eq
  have first : number = heap.pages.findIdx fun page => bytes.length + slotSize ≤ page.freeSpace :=
    named.trans (ordered.find?_eq _)
  constructor
  case lowest =>
    intro other page present earlier
    obtain ⟨inside, rfl⟩ := List.getElem?_eq_some_iff.mp present
    rw [first] at earlier
    simpa using List.not_of_lt_findIdx earlier
  case room =>
    intro page present
    have room := placed.inserted.room
    rwa [pageAt, present] at room
  case page_le => exact placed.replaced.number_le
  case new_iff => simp [first, List.findIdx_eq_length]
  case length_eq => exact placed.replaced.length_eq
  case slot_eq => rfl
  case inserted => exact placed.inserted
  case freeSpace_eq => exact placed.inserted.freeSpace_eq
  case pages_other => exact placed.replaced.page_other

/-- A page that is entered again after it was exchanged leaves no trace in the map. -/
theorem Ordered.setPage_setPage (ordered : heap.Ordered) {number : Nat} {old : Page} (page : Page)
    (present : heap.pages[number]? = some old) :
    (heap.setPage number page).setPage number old = heap := by
  obtain ⟨inside, rfl⟩ := List.getElem?_eq_some_iff.mp present
  have map_exact := ordered.map_exact
  obtain ⟨schema, pages, ⟨free⟩, backing⟩ := heap
  obtain rfl : free = pages.map Page.freeSpace := map_exact
  simp only [setPage, FreeSpaceMap.update, List.set_set, List.set_getElem_self, ← List.map_set]

/-- A page that is cut off after it was added leaves no trace in the map. -/
theorem Ordered.truncate_addPage (ordered : heap.Ordered) (page : Page) :
    (heap.addPage page).truncate heap.pages.length = heap := by
  have map_exact := ordered.map_exact
  obtain ⟨schema, pages, ⟨free⟩, backing⟩ := heap
  obtain rfl : free = pages.map Page.freeSpace := map_exact
  simp [truncate, addPage, FreeSpaceMap.truncate, FreeSpaceMap.add]

theorem Ordered.placesFirstFit (ordered : heap.Ordered) : PlacesFirstFit heap := by
  refine ⟨ordered.map_exact, fun bytes number => ordered.exists_insert?_of_find?, ?room_new, ?taken,
    ?refused, fun number old page => ordered.setPage_setPage page, ordered.truncate_addPage⟩
  case room_new =>
    intro row bytes encoded
    exact exists_insert?_empty ((encode_eq_ok_iff _ _ _).mp encoded).2 _
  case taken =>
    intro row disk id next after ran
    cases encoded : heap.encode row with
    | error cause =>
      rw [runOn_insert_rejected encoded] at ran
      cases ran
    | ok bytes =>
      obtain ⟨change, named, placed, ⟨_, result⟩ | ⟨_, result⟩⟩ := ordered.runOn_insert encoded disk
      · rw [result] at ran
        cases ran
      · rw [result] at ran
        cases ran
        exact ⟨bytes, rfl, placed.firstFit ordered named⟩
  case refused =>
    intro row disk error next after ran
    cases encoded : heap.encode row with
    | error cause =>
      rw [runOn_insert_rejected encoded] at ran
      cases ran
      exact ⟨rfl, .inl rfl⟩
    | ok bytes =>
      obtain ⟨change, _, _, ⟨refusal, result⟩ | ⟨_, result⟩⟩ := ordered.runOn_insert encoded disk
      · rw [result] at ran
        cases ran
        exact ⟨rfl, .inr ⟨refusal, rfl⟩⟩
      · rw [result] at ran
        cases ran

/-- After any calls on a new heap, or on one that was opened from a file, rows are placed on the first page
with room, whether the disk took all writes or not. -/
theorem places_first_fit (reached : Reached heap) : PlacesFirstFit heap := reached.ordered.placesFirstFit

/-- A row that is refused by the disk, and taken once the disk takes writes again. -/
theorem places_first_fit_refused :
    let schema : Schema := ⟨"t", [.ofType "a" .int]⟩
    let heap : HeapFile := ⟨schema, [], .empty, some ⟨"T.dat", 0⟩⟩
    let made := (createAt schema "T.dat").runOn .empty
    made.1 = .ok heap ∧ ∃ bytes id next kept after, heap.encode [.int 7] = .ok bytes ∧
      (insert [.int 7]).runOn (heap, made.2.withRefusal true) =
        (.error (.disk .writesRefused), heap, kept) ∧
      (insert [.int 7]).runOn (heap, made.2) = (.ok id, next, after) ∧
      Reached next ∧ PlacesFirstFit next ∧ FirstFit heap bytes id next := by
  intro schema heap made
  have fresh : Reached heap := .fresh schema heap made.2 (.createAt "T.dat" .empty heap made.2 rfl)
  obtain ⟨bytes, encoded⟩ : ∃ bytes, heap.encode [.int 7] = .ok bytes :=
    ⟨_, by with_unfolding_all rfl⟩
  obtain ⟨_, _, _, ⟨_, refused⟩ | ⟨taken, _⟩⟩ :=
    fresh.ordered.runOn_insert encoded (made.2.withRefusal true)
  · obtain ⟨_, _, _, ⟨refusal, _⟩ | ⟨_, stored⟩⟩ := fresh.ordered.runOn_insert encoded made.2
    · cases refusal.2
    · have reached := fresh.insert [.int 7] made.2
      rw [stored] at reached
      obtain ⟨bytes, encoded, firstFit⟩ := (places_first_fit fresh).taken _ _ _ _ _ stored
      exact ⟨rfl, bytes, _, _, _, _, encoded, refused, stored, reached, places_first_fit reached,
        firstFit⟩
  · exact absurd ⟨rfl, rfl⟩ taken

end RowStore.HeapFile
