import RowStore.Proofs.Disk.Replacing
import RowStore.Proofs.Heap.Change

/-!
Heaps that are opened from files. A disk whose files hold sound pages stays one whatever heaps write
to it, and a heap that is opened from such a file is sound.
-/

namespace RowStore

/-- Whatever is read as a page of these contents is sound. -/
def Contents.PagesSound (contents : Contents) : Prop :=
  ∀ (number : Nat) (page : Page), Page.ofBlock (contents.block number) = .ok page →
    page.number = number → page.Sound

/-- A block of zeros is no page, since its row data would begin in its head. -/
theorem Page.not_inOrder_zero : ¬ (⟨.zero⟩ : Page).InOrder := by
  intro inOrder
  have start : (⟨.zero⟩ : Page).dataStart = 0 := by decide +kernel
  have directory_le := inOrder.directory_le
  rw [start, directoryEnd, pageHeadSize] at directory_le
  omega

theorem Contents.pagesSound_empty : empty.PagesSound := by
  intro number page read _
  rw [block_empty, Page.ofBlock_eq_ok_iff] at read
  obtain ⟨rfl, inOrder⟩ := read
  exact absurd inOrder Page.not_inOrder_zero

theorem Contents.PagesSound.writeBlock {contents : Contents} (pagesSound : contents.PagesSound)
    {page : Page} (sound : page.Sound) (number : Nat) :
    (contents.writeBlock number page.block).PagesSound := by
  intro other found read own
  rw [block_writeBlock] at read
  split at read
  · cases sound.ofBlock_eq_ok.symm.trans read
    exact sound
  · exact pagesSound other found read own

namespace Disk

variable {disk after : Disk} {path : String} {bytes : List UInt8} {exception : Option Location}

/-- Every file holds sound pages, but perhaps for the one at a place where no pages belong. -/
def PagesSound (exception : Option Location) (disk : Disk) : Prop :=
  ∀ location number, disk.node? location = some (.file number) → exception ≠ some location →
    (disk.contents number).PagesSound

theorem Furnished.pagesSound (furnished : Furnished disk after)
    (pagesSound : disk.PagesSound exception) : after.PagesSound exception := by
  intro location number found elsewhere
  rw [furnished.contents_eq]
  rcases furnished.gained location _ found with earlier | new
  · exact pagesSound location number earlier elsewhere
  · cases new

theorem PagesSound.modifyContents (pagesSound : disk.PagesSound exception) (file : Nat)
    {change : Contents → Contents}
    (kept : ∀ contents : Contents, contents.PagesSound → (change contents).PagesSound) :
    (disk.modifyContents file change).PagesSound exception := by
  intro location number found elsewhere
  have before := pagesSound location number found elsewhere
  by_cases same : number = file
  · subst same
    simp only [contents, Disk.modifyContents, Array.getD_eq_getD_getElem?, Array.getElem?_modify,
      if_true] at before ⊢
    cases known : disk.files[number]? with
    | none => exact Contents.pagesSound_empty
    | some contents =>
      rw [known] at before
      exact kept contents before
  · simp only [contents, Disk.modifyContents, Array.getD_eq_getD_getElem?, Array.getElem?_modify,
      if_neg (Ne.symm same)] at before ⊢
    exact before

theorem PagesSound.addFile (pagesSound : disk.PagesSound exception) (intact : disk.Intact)
    {location : Location} (inside : location ≠ []) {contents : Contents}
    (fits : contents.PagesSound ∨ exception = some location) :
    (disk.addFile location contents).2.PagesSound exception := by
  intro other number found elsewhere
  rw [node?_addFile disk inside] at found
  rw [contents_addFile]
  split at found
  · rename_i same
    subst same
    cases found
    rw [if_pos rfl]
    exact fits.resolve_right elsewhere
  · have known := intact other number found
    rw [if_neg (Nat.ne_of_lt known)]
    exact pagesSound other number found elsewhere

theorem Opens.pagesSound {truncate : Bool} {result : Except DiskFault Nat} (intact : disk.Intact)
    (pagesSound : disk.PagesSound exception) (opens : Opens path truncate disk result after) :
    after.PagesSound exception := by
  cases opens with
  | failed fault after furnished => exact furnished.pagesSound pagesSound
  | present middle number furnished holds =>
    have made := furnished.pagesSound pagesSound
    cases truncate with
    | true => exact made.modifyContents number fun _ _ => Contents.pagesSound_empty
    | false => exact made
  | created middle furnished leads free =>
    exact (furnished.pagesSound pagesSound).addFile (furnished.intact intact) leads.locate_ne_nil
      (.inl Contents.pagesSound_empty)

/-- Whatever is put in the place where no pages belong, the others stay sound. -/
theorem Replaces.pagesSound {result : Except DiskFault Unit} (intact : disk.Intact)
    (pagesSound : disk.PagesSound (some (locate path)))
    (replaces : Replaces path bytes disk result after) :
    after.PagesSound (some (locate path)) := by
  cases replaces with
  | failed fault after furnished => exact furnished.pagesSound pagesSound
  | replaced middle furnished leads beside_usable no_directory =>
    exact (furnished.pagesSound pagesSound).addFile (furnished.intact intact) leads.locate_ne_nil
      (.inr rfl)

theorem Removes.pagesSound {result : Except DiskFault Unit}
    (pagesSound : disk.PagesSound exception) (removes : Removes path disk result after) :
    after.PagesSound exception := by
  cases removes with
  | failed fault => exact pagesSound
  | removed number entry =>
    intro location other found elsewhere
    have inside : locate path ≠ [] := by
      intro root
      simp [root] at entry
    rw [node?_eraseNode disk inside] at found
    split at found
    · cases found
    · exact pagesSound location other found elsewhere

end Disk

namespace HeapFile

variable {heap next : HeapFile} {disk after : Disk} {exception : Option Location} {row : Row}
  {id : RowId}

theorem pagesSound_afterWrite (pagesSound : disk.PagesSound exception) {page : Page}
    (sound : page.Sound) (number : Nat) :
    (afterWrite heap number page disk).PagesSound exception := by
  rw [afterWrite]
  cases heap.backing with
  | none => exact pagesSound
  | some file =>
    have counted : (afterRefusal disk).PagesSound exception := pagesSound
    exact counted.modifyContents file.file fun _ before => before.writeBlock sound number

theorem intact_afterWrite (intact : disk.Intact) (number : Nat) (page : Page) :
    (afterWrite heap number page disk).Intact := by
  rw [afterWrite]
  cases heap.backing with
  | none => exact intact
  | some file =>
    have counted : (afterRefusal disk).Intact := intact
    exact counted.modifyContents _ _

theorem Inserts.pagesSound {answer : Except StorageError RowId} (sound : heap.Sound)
    (pagesSound : disk.PagesSound exception) (inserts : Inserts heap disk row answer next after) :
    after.PagesSound exception := by
  cases inserts with
  | rejected => exact pagesSound
  | refused => exact pagesSound
  | stored bytes change encoded placed taken =>
    exact pagesSound_afterWrite pagesSound (placed.inserted.sound (sound.pageAt_sound _)) _

theorem Deletes.pagesSound {answer : Except StorageError Bool} (sound : heap.Sound)
    (pagesSound : disk.PagesSound exception) (deletes : Deletes heap disk id answer next after) :
    after.PagesSound exception := by
  cases deletes with
  | absent => exact pagesSound
  | refused => exact pagesSound
  | deleted bytes change found erased taken =>
    exact pagesSound_afterWrite pagesSound (erased.deleted.sound (sound.pageAt_sound _)) _

theorem Inserts.intact {answer : Except StorageError RowId} (intact : disk.Intact)
    (inserts : Inserts heap disk row answer next after) : after.Intact := by
  cases inserts with
  | rejected => exact intact
  | refused => exact intact
  | stored => exact intact_afterWrite intact _ _

theorem Deletes.intact {answer : Except StorageError Bool} (intact : disk.Intact)
    (deletes : Deletes heap disk id answer next after) : after.Intact := by
  cases deletes with
  | absent => exact intact
  | refused => exact intact
  | deleted => exact intact_afterWrite intact _ _

theorem loadPage_eq_ok {file : PageFile} {number : Nat} {page : Page}
    (loaded : loadPage file disk number = .ok page) :
    (number + 1) * blockSize ≤ (disk.contents file.file).size ∧
      Page.ofBlock ((disk.contents file.file).block number) = .ok page ∧ page.number = number := by
  rw [loadPage, PageFile.readPage] at loaded
  by_cases whole : (number + 1) * blockSize ≤ (disk.contents file.file).size
  · simp only [if_pos whole, Except.mapError, bind, Except.bind] at loaded
    cases read : Page.ofBlock ((disk.contents file.file).block number) with
    | error fault => simp [read] at loaded
    | ok found =>
      by_cases own : found.number = number
      · simp only [read, own, ne_eq, not_true_eq_false, if_false, pure, Except.pure,
          Except.ok.injEq] at loaded
        subst loaded
        exact ⟨whole, rfl, own⟩
      · simp [read, own, throw, throwThe, MonadExceptOf.throw] at loaded
  · simp [if_neg whole, Except.mapError, bind, Except.bind] at loaded

/-- Pages that are loaded are those of the file, in order and with their own numbers. -/
theorem loadPages_eq_ok {file : PageFile} {start count : Nat} {pages : List Page}
    (loaded : loadPages file disk start count = .ok pages) :
    pages.length = count ∧ ∀ offset page, pages[offset]? = some page →
      loadPage file disk (start + offset) = .ok page := by
  induction count generalizing start pages with
  | zero =>
    cases loaded
    exact ⟨rfl, fun offset page found => by simp at found⟩
  | succ count ih =>
    rw [loadPages] at loaded
    cases first : loadPage file disk start with
    | error fault => simp [first, bind, Except.bind] at loaded
    | ok page =>
      cases later : loadPages file disk (start + 1) count with
      | error fault => simp [first, later, bind, Except.bind] at loaded
      | ok rest =>
        simp only [first, later, bind, Except.bind, pure, Except.pure, Except.ok.injEq] at loaded
        subst loaded
        obtain ⟨length_eq, each⟩ := ih later
        refine ⟨by rw [List.length_cons, length_eq], ?_⟩
        intro offset found present
        cases offset with
        | zero =>
          cases present
          exact first
        | succ offset =>
          rw [Nat.add_comm offset, ← Nat.add_assoc]
          exact each offset found present

/-- Whatever a heap finds in its file, opening it changes nothing but the way to that file. -/
theorem exists_opens (schema : Schema) (path : String) (disk : Disk) :
    ∃ answer, Disk.Opens path false disk answer ((openAt schema path).runOn disk).2 := by
  have opens := Disk.opens path false disk
  simp only [openAt, PageFile.openAt, Step.runOn_bind, Step.runOn_mapError, Step.runOn_get,
    Step.runOn_ofExcept, Step.runOn_pure]
  generalize (Disk.openFile path false).runOn disk = outcome at opens
  obtain ⟨result, middle⟩ := outcome
  refine ⟨result, ?_⟩
  cases result with
  | error fault => exact opens
  | ok number =>
    simp only [Except.mapError]
    cases loadPages ⟨path, number⟩ middle 0 (PageFile.pageCount ⟨path, number⟩ middle) <;> exact opens

theorem pageCount_lt (file : PageFile) (disk : Disk) : file.pageCount disk < UInt32.size :=
  Nat.mod_lt _ (by decide)

/-- What opening a heap finds: its file, and in it the pages that it loads. -/
theorem openAt_eq_ok {schema : Schema} {path : String}
    (opened : (openAt schema path).runOn disk = (.ok heap, after)) :
    ∃ number, Disk.Opens path false disk (.ok number) after ∧
      loadPages ⟨path, number⟩ after 0 (PageFile.pageCount ⟨path, number⟩ after) = .ok heap.pages ∧
      heap = ofPages schema heap.pages (some ⟨path, number⟩) := by
  have opens := Disk.opens path false disk
  simp only [openAt, PageFile.openAt, Step.runOn_bind, Step.runOn_mapError, Step.runOn_get,
    Step.runOn_ofExcept, Step.runOn_pure] at opened
  generalize (Disk.openFile path false).runOn disk = outcome at opens opened
  obtain ⟨result, middle⟩ := outcome
  cases result with
  | error fault => simp [Except.mapError] at opened
  | ok number =>
    simp only [Except.mapError] at opened
    cases loaded : loadPages ⟨path, number⟩ middle 0 (PageFile.pageCount ⟨path, number⟩ middle) with
    | error fault => simp [loaded] at opened
    | ok pages =>
      simp only [loaded, Prod.mk.injEq, Except.ok.injEq] at opened
      obtain ⟨rfl, rfl⟩ := opened
      exact ⟨number, opens, loaded, rfl⟩

/-- The pages that a heap loads from its file are in order, whatever is in the file. -/
theorem ordered_ofPages {file : PageFile} {pages : List Page} {count : Nat} {schema : Schema}
    {backing : Option PageFile} (few : count < UInt32.size)
    (loaded : loadPages file disk 0 count = .ok pages) :
    (ofPages schema pages backing).Ordered := by
  obtain ⟨length_eq, each⟩ := loadPages_eq_ok loaded
  refine ⟨rfl, ?in_order, ?page_number⟩
  case in_order =>
    intro number page present
    obtain ⟨_, read, _⟩ := loadPage_eq_ok (each number page present)
    exact ((Page.ofBlock_eq_ok_iff _ _).mp read).2
  case page_number =>
    intro number page present
    have inside : number < pages.length := (List.getElem?_eq_some_iff.mp present).1
    obtain ⟨_, _, own⟩ := loadPage_eq_ok (each number page present)
    rw [own, Nat.zero_add, Nat.mod_eq_of_lt (by omega)]

theorem ordered_of_openAt {schema : Schema} {path : String}
    (opened : (openAt schema path).runOn disk = (.ok heap, after)) : heap.Ordered := by
  obtain ⟨number, _, loaded, heap_eq⟩ := openAt_eq_ok opened
  rw [heap_eq]
  exact ordered_ofPages (pageCount_lt _ _) loaded

/-- A heap is sound if what it loads from its file is. -/
theorem sound_ofPages {file : PageFile} {pages : List Page} {count : Nat} {schema : Schema}
    {backing : Option PageFile} (few : count < UInt32.size)
    (loaded : loadPages file disk 0 count = .ok pages)
    (pagesSound : pages = [] ∨ (disk.contents file.file).PagesSound) :
    (ofPages schema pages backing).Sound := by
  have ordered : (ofPages schema pages backing).Ordered := ordered_ofPages few loaded
  refine ⟨ordered.map_exact, fun number page present => ?_, ordered.page_number⟩
  obtain ⟨_, read, own⟩ := loadPage_eq_ok ((loadPages_eq_ok loaded).2 number page present)
  rw [Nat.zero_add] at read own
  rcases pagesSound with none | pagesSound
  · simp [ofPages, none] at present
  · exact pagesSound number page read own

end HeapFile

end RowStore
