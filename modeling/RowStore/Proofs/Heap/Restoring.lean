import RowStore.Proofs.Catalog.Heading
import RowStore.Proofs.Heap.Calls
import RowStore.Proofs.Heap.Registry

/-!
Heaps that are opened again. On a disk whose files hold sound pages every heap that is opened is sound,
even where the path of a table leads to the file of the catalog.
-/

namespace RowStore

namespace Disk

variable {disk after : Disk} {exception : Option Location} {path : String} {location : Location}
  {plan : Nat → Bool}

/-- A disk that takes all writes and whose files hold sound pages, but perhaps for the one at a place
where no pages belong. -/
structure Ready (exception : Option Location) (disk : Disk) : Prop where
  intact : disk.Intact
  pagesSound : disk.PagesSound exception
  takes : ∀ write, disk.refuses write = false

/-- A disk that refuses writes by a plan and whose files hold sound pages, but perhaps for the one at a
place where no pages belong. -/
structure Orderly (exception : Option Location) (plan : Nat → Bool) (disk : Disk) : Prop where
  intact : disk.Intact
  pagesSound : disk.PagesSound exception
  refuses_eq : disk.refuses = plan

theorem ready_iff_orderly : disk.Ready exception ↔ disk.Orderly exception fun _ => false :=
  ⟨fun ready => ⟨ready.intact, ready.pagesSound, funext ready.takes⟩,
    fun orderly => ⟨orderly.intact, orderly.pagesSound, fun write => congrFun orderly.refuses_eq write⟩⟩

/-- A disk without entries is fit for pages, whatever writes it refuses. -/
theorem orderly_empty (exception : Option Location) (plan : Nat → Bool) :
    { Disk.empty with refuses := plan }.Orderly exception plan := by
  refine ⟨intact_empty, ?_, rfl⟩
  intro location number found
  by_cases root : location = []
  · simp [root] at found
  · rw [node?_of_ne_nil _ root] at found
    simp [empty] at found

theorem Opens.refuses_eq {truncate : Bool} {result : Except DiskFault Nat}
    (opens : Opens path truncate disk result after) : after.refuses = disk.refuses := by
  cases opens with
  | failed fault after furnished => exact furnished.refuses_eq
  | present middle number furnished holds =>
    rw [← furnished.refuses_eq]
    cases truncate <;> rfl
  | created middle furnished leads free => exact furnished.refuses_eq

theorem Replaces.refuses_eq {bytes : List UInt8} {result : Except DiskFault Unit}
    (replaces : Replaces path bytes disk result after) : after.refuses = disk.refuses := by
  cases replaces with
  | failed fault after furnished => exact furnished.refuses_eq
  | replaced middle furnished => exact furnished.refuses_eq

theorem Removes.refuses_eq {result : Except DiskFault Unit}
    (removes : Removes path disk result after) : after.refuses = disk.refuses := by
  cases removes <;> rfl

namespace Orderly

theorem opens {truncate : Bool} {result : Except DiskFault Nat}
    (orderly : disk.Orderly exception plan) (opens : Opens path truncate disk result after) :
    after.Orderly exception plan :=
  ⟨opens.intact orderly.intact, opens.pagesSound orderly.intact orderly.pagesSound,
    by rw [opens.refuses_eq, orderly.refuses_eq]⟩

theorem replaces {bytes : List UInt8} {result : Except DiskFault Unit}
    (orderly : disk.Orderly (some (locate path)) plan)
    (replaces : Replaces path bytes disk result after) : after.Orderly (some (locate path)) plan :=
  ⟨replaces.intact orderly.intact, replaces.pagesSound orderly.intact orderly.pagesSound,
    by rw [replaces.refuses_eq, orderly.refuses_eq]⟩

theorem removes {result : Except DiskFault Unit} (orderly : disk.Orderly exception plan)
    (removes : Removes path disk result after) : after.Orderly exception plan :=
  ⟨removes.intact orderly.intact, removes.pagesSound orderly.pagesSound,
    by rw [removes.refuses_eq, orderly.refuses_eq]⟩

theorem calls {heap next : HeapFile} (orderly : disk.Orderly exception plan) (sound : heap.Sound)
    (calls : HeapFile.Calls heap disk next after) : after.Orderly exception plan :=
  ⟨calls.intact orderly.intact, calls.pagesSound sound orderly.pagesSound,
    by rw [calls.refuses_eq, orderly.refuses_eq]⟩

end Orderly

/-- A disk with a file at a place that is read as a catalog. -/
def HasCatalog (location : Location) (disk : Disk) : Prop :=
  ∃ number text tables, disk.node? location = some (.file number) ∧
    Text.Utf8.decode? (disk.contents number).toBytes = some text ∧
    CatalogText.parse text = .ok tables

theorem Furnished.hasCatalog (furnished : Furnished disk after)
    (hasCatalog : disk.HasCatalog location) : after.HasCatalog location := by
  obtain ⟨number, text, tables, entry, read, parsed⟩ := hasCatalog
  refine ⟨number, text, tables, furnished.kept _ _ entry, ?_, parsed⟩
  rw [furnished.contents_eq, read]

/-- A file that is opened, and not truncated, leaves a catalog as it is. -/
theorem Opens.hasCatalog {result : Except DiskFault Nat} (intact : disk.Intact)
    (opens : Opens path false disk result after) (hasCatalog : disk.HasCatalog location) :
    after.HasCatalog location := by
  cases opens with
  | failed fault after furnished => exact furnished.hasCatalog hasCatalog
  | present middle number furnished holds => exact furnished.hasCatalog hasCatalog
  | created middle furnished leads free =>
    obtain ⟨number, text, tables, entry, read, parsed⟩ := furnished.hasCatalog hasCatalog
    have known := furnished.intact intact location number entry
    refine ⟨number, text, tables, ?_, ?_, parsed⟩
    · rw [node?_addFile middle leads.locate_ne_nil, if_neg, entry]
      rintro rfl
      rw [free] at entry
      cases entry
    · rw [contents_addFile, if_neg (Nat.ne_of_lt known), read]

end Disk

namespace HeapFile

variable {heap : HeapFile} {disk after : Disk} {schema : Schema} {path : String} {catalog : Location}
  {plan : Nat → Bool}

/-- A heap that is opened is sound. From the file of the catalog, a heap is opened only if it gets no
pages. -/
theorem sound_of_openAt (orderly : disk.Orderly (some catalog) plan)
    (hasCatalog : disk.HasCatalog catalog)
    (opened : (openAt schema path).runOn disk = (.ok heap, after)) :
    heap.Sound ∧ heap.schema = schema ∧ after.Orderly (some catalog) plan ∧
      after.HasCatalog catalog := by
  obtain ⟨number, opens, loaded, heap_eq⟩ := openAt_eq_ok opened
  have orderlyAfter := orderly.opens opens
  have kept := opens.hasCatalog orderly.intact hasCatalog
  have held := (opens.holds orderly.intact).1.entry
  refine ⟨?_, by rw [heap_eq]; rfl, orderlyAfter, kept⟩
  rw [heap_eq]
  apply sound_ofPages (pageCount_lt _ _) loaded
  by_cases elsewhere : catalog = Disk.locate path
  · obtain ⟨other, text, tables, entry, read, parsed⟩ := kept
    rw [elsewhere, held] at entry
    cases entry
    cases pages : heap.pages with
    | nil => exact .inl rfl
    | cons page rest =>
      obtain ⟨_, each⟩ := loadPages_eq_ok loaded
      obtain ⟨whole, first, own⟩ := loadPage_eq_ok (each 0 page (by rw [pages]; rfl))
      rw [Nat.zero_add, Nat.one_mul] at whole
      exact absurd own (Contents.no_page_of_parse read parsed whole first)
  · exact .inr (orderlyAfter.pagesSound _ _ held fun same => elsewhere (Option.some.inj same))

end HeapFile

namespace HeapRegistry

variable {registry next : HeapRegistry} {disk after : Disk} {catalog : Location}
  {schemas : List Schema} {plan : Nat → Bool}

/-- A registry of sound heaps, each of a schema among the given ones and under its folded name. -/
def Belongs (registry : HeapRegistry) (schemas : List Schema) : Prop :=
  ∀ key heap, registry.heaps[key]? = some heap →
    heap.Sound ∧ heap.schema ∈ schemas ∧ key = Text.fold heap.schema.table

theorem belongs_empty (directory : Option String) (extension : String) (schemas : List Schema) :
    (empty directory extension).Belongs schemas := by
  intro key heap found
  simp [empty] at found

theorem Belongs.insert {heap : HeapFile} (belongs : registry.Belongs schemas) (sound : heap.Sound)
    (member : heap.schema ∈ schemas) :
    (registry.insert heap.schema.table heap).Belongs schemas := by
  intro key found present
  rw [getElem?_insert] at present
  split at present
  · cases present
    exact ⟨sound, member, by assumption⟩
  · exact belongs key found present

theorem Restores.belongs {schema : Schema} {result : Except StorageError Unit}
    (orderly : disk.Orderly (some catalog) plan) (hasCatalog : disk.HasCatalog catalog)
    (belongs : registry.Belongs schemas) (member : schema ∈ schemas)
    (restores : Restores schema registry disk result next after) :
    after.Orderly (some catalog) plan ∧
      (result = .ok () → next.Belongs schemas ∧ after.HasCatalog catalog) := by
  cases restores with
  | inMemory nowhere =>
    exact ⟨orderly, fun _ => ⟨belongs.insert (HeapFile.sound_empty schema none) member, hasCatalog⟩⟩
  | failed path error after somewhere opened =>
    obtain ⟨answer, opens⟩ := HeapFile.exists_opens schema path disk
    rw [opened] at opens
    exact ⟨orderly.opens opens, fun never => by cases never⟩
  | opened path heap after somewhere opened =>
    obtain ⟨sound, rfl, orderlyAfter, kept⟩ := HeapFile.sound_of_openAt orderly hasCatalog opened
    exact ⟨orderlyAfter, fun _ => ⟨belongs.insert sound member, kept⟩⟩

/-- The heaps of tables that are opened one after another are sound. -/
theorem belongs_of_forM (orderly : disk.Orderly (some catalog) plan)
    (hasCatalog : disk.HasCatalog catalog)
    (belongs : registry.Belongs schemas) (listed : List Schema)
    (members : ∀ schema ∈ listed, schema ∈ schemas) :
    ((listed.forM restoreOne).runOn (registry, disk)).2.2.Orderly (some catalog) plan ∧
      (((listed.forM restoreOne).runOn (registry, disk)).1 = .ok () →
        ((listed.forM restoreOne).runOn (registry, disk)).2.1.Belongs schemas) := by
  induction listed generalizing registry disk with
  | nil => exact ⟨orderly, fun _ => belongs⟩
  | cons schema rest ih =>
    rw [Step.runOn_forM_cons]
    have restored := restores schema registry disk
    generalize (restoreOne schema).runOn (registry, disk) = outcome at restored
    obtain ⟨result, middle, between⟩ := outcome
    obtain ⟨orderlyBetween, succeeded⟩ :=
      restored.belongs orderly hasCatalog belongs (members schema List.mem_cons_self)
    cases result with
    | error error => exact ⟨orderlyBetween, fun never => by cases never⟩
    | ok _ =>
      obtain ⟨belongsMiddle, kept⟩ := succeeded rfl
      exact ih orderlyBetween kept belongsMiddle fun other member =>
        members other (List.mem_cons_of_mem _ member)

theorem belongs_of_restore (orderly : disk.Orderly (some catalog) plan)
    (hasCatalog : disk.HasCatalog catalog)
    (belongs : registry.Belongs schemas) :
    ((restore schemas).runOn (registry, disk)).2.2.Orderly (some catalog) plan ∧
      (∀ count, ((restore schemas).runOn (registry, disk)).1 = .ok count →
        ((restore schemas).runOn (registry, disk)).2.1.Belongs schemas) := by
  have opened := belongs_of_forM orderly hasCatalog belongs schemas fun _ member => member
  rw [restore]
  simp only [Step.runOn_bind]
  generalize (schemas.forM restoreOne).runOn (registry, disk) = outcome at opened
  obtain ⟨result, reached, left⟩ := outcome
  cases result with
  | error error => exact ⟨opened.1, fun count never => by cases never⟩
  | ok _ => exact ⟨opened.1, fun count _ => opened.2 rfl⟩

end HeapRegistry

end RowStore
