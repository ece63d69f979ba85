import RowStore.Proofs.Catalog.Persisting
import RowStore.Proofs.Engine.Lawful
import RowStore.Proofs.Engine.Reachable

/-!
Where an engine has its files. The file of an open heap is the one at the path of its table, and stands at
no other place, so a statement touches the place of its table and that of the catalog at most. Opening a
database touches no place where there was something.
-/

namespace RowStore

open Disk (FewPagesAt Owned Touches Unshared)
open HeapFile (Backed)

/-- The path of the file of a table, by its folded name. -/
def Settings.tablePath? (settings : Settings) (key : String) : Option String :=
  settings.dataDirectory.map (Path.join · (key ++ "." ++ settings.dataFileExtension))

/-- Where the file of a table stands. -/
def Settings.tablePlace? (settings : Settings) (key : String) : Option Location :=
  (settings.tablePath? key).map Disk.locate

/-- The place of the file of a table, if there are files. -/
def Settings.tablePlaces (settings : Settings) (key : String) : Set Location :=
  {location | settings.tablePlace? key = some location}

/-- The place of the file of the catalog, if there are files. -/
def Settings.catalogPlaces (settings : Settings) : Set Location :=
  {location | settings.catalogPlace? = some location}

variable {settings : Settings} {disk after : Disk} {places : Set Location} {table key path : String}

namespace HeapRegistry

variable {registry next : HeapRegistry} {heap : HeapFile} {schema : Schema}

/-- A registry whose heaps have their files at the paths of their tables, and no file stands anywhere
else as well. -/
structure Placed (settings : Settings) (registry : HeapRegistry) (disk : Disk) : Prop where
  path?_eq : ∀ table, registry.path? table = settings.tablePath? (Text.fold table)
  backing_eq : ∀ (key : String) (heap : HeapFile), registry.heaps[key]? = some heap →
    heap.backing.map PageFile.path = settings.tablePath? key
  owned : ∀ (key : String) (heap : HeapFile) (file : PageFile), registry.heaps[key]? = some heap →
    heap.backing = some file → disk.Owned (Disk.locate file.path) file.file
  unshared : disk.Unshared

theorem placed_empty (settings : Settings) (unshared : disk.Unshared) :
    (empty settings.dataDirectory settings.dataFileExtension).Placed settings disk := by
  refine ⟨fun table => rfl, fun key heap never => ?_, fun key heap file never => ?_, unshared⟩
  all_goals simp [empty] at never

namespace Placed

theorem touched (placed : registry.Placed settings disk) (touches : Touches places disk after)
    (unshared : after.Unshared) : registry.Placed settings after :=
  ⟨placed.path?_eq, placed.backing_eq,
    fun key heap file present backing => (placed.owned key heap file present backing).touches touches,
    unshared⟩

theorem insert (placed : registry.Placed settings disk)
    (backing_eq : heap.backing.map PageFile.path = settings.tablePath? (Text.fold table))
    (owned : ∀ file, heap.backing = some file → disk.Owned (Disk.locate file.path) file.file) :
    (registry.insert table heap).Placed settings disk := by
  refine ⟨placed.path?_eq, fun key found present => ?backing_eq,
    fun key found file present backing => ?owned, placed.unshared⟩
  case backing_eq =>
    rw [getElem?_insert] at present
    split at present
    · rename_i same
      cases present
      rw [same, backing_eq]
    · exact placed.backing_eq key found present
  case owned =>
    rw [getElem?_insert] at present
    split at present
    · cases present
      exact owned file backing
    · exact placed.owned key found file present backing

theorem erase (placed : registry.Placed settings disk) (table : String) :
    (registry.erase table).Placed settings disk := by
  have kept (key : String) (heap : HeapFile) (present : (registry.erase table).heaps[key]? = some heap) :
      registry.heaps[key]? = some heap := by
    rw [getElem?_erase] at present
    split at present
    · cases present
    · exact present
  exact ⟨placed.path?_eq, fun key heap present => placed.backing_eq key heap (kept key heap present),
    fun key heap file present => placed.owned key heap file (kept key heap present), placed.unshared⟩

/-- The file that is opened for a table stands at the path of the table and nowhere else. -/
theorem insert_opened {number : Nat} {truncate : Bool} (placed : registry.Placed settings disk)
    (somewhere : registry.path? table = some path)
    (opens : Disk.Opens path truncate disk (.ok number) after) (touches : Touches places disk after)
    (backing : heap.backing = some ⟨path, number⟩) :
    (registry.insert table heap).Placed settings after := by
  have unshared := placed.unshared.opens opens
  apply (placed.touched touches unshared).insert
  · rw [backing, ← placed.path?_eq, somewhere]
    rfl
  · intro file same
    cases backing.symm.trans same
    exact unshared.owned (opens.holds placed.unshared.intact).1.entry

theorem locate_mem (placed : registry.Placed settings disk) (somewhere : registry.path? table = some path) :
    {Disk.locate path} ⊆ settings.tablePlaces (Text.fold table) := by
  rintro _ rfl
  rw [placed.path?_eq] at somewhere
  exact congrArg (Option.map Disk.locate) somewhere

theorem creates {result : Except StorageError HeapFile} (placed : registry.Placed settings disk)
    (creates : Creates schema registry disk result next after) :
    next.Placed settings after ∧ Touches (settings.tablePlaces (Text.fold schema.table)) disk after := by
  cases creates with
  | known => exact ⟨placed, .refl _ _⟩
  | inMemory absent nowhere =>
    refine ⟨placed.insert ?_ (fun file never => by cases never), .refl _ _⟩
    rw [← placed.path?_eq, nowhere]
    rfl
  | failed path fault after absent somewhere opens =>
    have touches := (opens.touches placed.unshared).mono (placed.locate_mem somewhere)
    exact ⟨placed.touched touches (placed.unshared.opens opens), touches⟩
  | created path number after absent somewhere opens =>
    have touches := (opens.touches placed.unshared).mono (placed.locate_mem somewhere)
    exact ⟨placed.insert_opened somewhere opens touches rfl, touches⟩

theorem locate_mem_of_backing {file : PageFile} (placed : registry.Placed settings disk)
    (present : registry.get? table = some heap) (backing : heap.backing = some file) :
    {Disk.locate file.path} ⊆ settings.tablePlaces (Text.fold table) := by
  rintro _ rfl
  have same := placed.backing_eq _ heap present
  rw [backing, Option.map_some] at same
  exact congrArg (Option.map Disk.locate) same.symm

theorem drops {result : Except StorageError Unit} (placed : registry.Placed settings disk)
    (drops : Drops table registry disk result next after) :
    next.Placed settings after ∧ Touches (settings.tablePlaces (Text.fold table)) disk after := by
  cases drops with
  | missing => exact ⟨placed, .refl _ _⟩
  | closed => exact ⟨placed.erase table, .refl _ _⟩
  | removed heap file outcome after present somewhere ran =>
    have removes := Disk.removes file.path disk
    rw [ran] at removes
    have touches := removes.touches.mono (placed.locate_mem_of_backing present somewhere)
    exact ⟨(placed.touched touches (placed.unshared.removes removes)).erase table, touches⟩

theorem stays {next : HeapFile} (placed : registry.Placed settings disk)
    (present : registry.get? table = some heap)
    (stays : HeapFile.StaysInFile (heap, disk) (next, after)) :
    (registry.insert table next).Placed settings after ∧
      Touches (settings.tablePlaces (Text.fold table)) disk after := by
  have backing_eq := placed.backing_eq _ heap present
  have confined := stays.confined
  have owned (file : PageFile) := placed.owned _ heap file present
  cases backing : heap.backing with
  | none =>
    have none : next.backing = none := stays.backing_eq.trans backing
    rw [backing] at confined backing_eq
    obtain rfl : after = disk := confined
    exact ⟨placed.insert (by rw [none]; exact backing_eq) (fun file never => by cases none.symm.trans never),
      .refl _ _⟩
  | some file =>
    have same : next.backing = some file := stays.backing_eq.trans backing
    rw [backing] at confined backing_eq
    have onlyFile : Disk.OnlyFile file.file disk after := confined
    have touches := (onlyFile.touches (owned file backing)).mono
      (placed.locate_mem_of_backing present backing)
    refine ⟨(placed.touched touches (placed.unshared.onlyFile onlyFile)).insert
      (by rw [same]; exact backing_eq) fun other again => ?_, touches⟩
    cases same.symm.trans again
    exact (owned file backing).touches touches

/-- Opening the heap of a table. -/
theorem restores {result : Except StorageError Unit} (placed : registry.Placed settings disk)
    (restores : Restores schema registry disk result next after) :
    next.Placed settings after ∧ Touches disk.free disk after := by
  cases restores with
  | inMemory nowhere =>
    refine ⟨placed.insert ?_ (fun file never => by cases never), .refl _ _⟩
    rw [← placed.path?_eq, nowhere]
    rfl
  | failed path error after somewhere opened =>
    obtain ⟨answer, opens⟩ := HeapFile.exists_opens schema path disk
    rw [opened] at opens
    exact ⟨placed.touched opens.touches_free (placed.unshared.opens opens), opens.touches_free⟩
  | opened path heap after somewhere opened =>
    obtain ⟨number, opens, _, heap_eq⟩ := HeapFile.openAt_eq_ok opened
    exact ⟨placed.insert_opened somewhere opens opens.touches_free (by rw [heap_eq]; rfl),
      opens.touches_free⟩

end Placed

/-- The heap under a folded name, if it is open, is backed by the file at a path, whose pages are few. -/
structure InSync (key path : String) (registry : HeapRegistry) (disk : Disk) : Prop where
  few : disk.FewPagesAt (Disk.locate path)
  backed : ∀ heap, registry.heaps[key]? = some heap → ∃ number, Backed heap ⟨path, number⟩ disk

theorem inSync_empty (few : disk.FewPagesAt (Disk.locate path)) (directory : Option String)
    (extension : String) : (empty directory extension).InSync key path disk := by
  refine ⟨few, fun heap never => ?_⟩
  simp [empty] at never

theorem InSync.restores {result : Except StorageError Unit} (inSync : registry.InSync key path disk)
    (placed : registry.Placed settings disk) (located : settings.tablePath? key = some path)
    (restores : Restores schema registry disk result next after) : next.InSync key path after := by
  have later := placed.restores restores
  have kept (heap : HeapFile) (present : registry.heaps[key]? = some heap) :
      ∃ number, Backed heap ⟨path, number⟩ after := by
    obtain ⟨number, backed⟩ := inSync.backed heap present
    exact ⟨number, backed.touched_free later.2⟩
  cases restores with
  | inMemory nowhere =>
    refine ⟨inSync.few, fun heap present => ?_⟩
    rw [getElem?_insert] at present
    split at present
    · rename_i same
      rw [placed.path?_eq, ← same, located] at nowhere
      cases nowhere
    · exact kept heap present
  | failed path' error after somewhere opened =>
    obtain ⟨answer, opens⟩ := HeapFile.exists_opens schema path' disk
    rw [opened] at opens
    exact ⟨opens.fewPagesAt placed.unshared.intact inSync.few, kept⟩
  | opened path' heap after somewhere opened =>
    obtain ⟨answer, opens⟩ := HeapFile.exists_opens schema path' disk
    rw [opened] at opens
    have few := opens.fewPagesAt placed.unshared.intact inSync.few
    refine ⟨few, fun found present => ?_⟩
    rw [getElem?_insert] at present
    split at present
    · rename_i same
      cases present
      rw [placed.path?_eq, ← same, located] at somewhere
      cases somewhere
      exact HeapFile.backed_of_openAt placed.unshared.intact opened few
    · exact kept found present

/-- What opening heaps makes of a registry and its disk. -/
def Restored (settings : Settings) (state after : HeapRegistry × Disk) : Prop :=
  state.1.Placed settings state.2 →
    after.1.Placed settings after.2 ∧ Touches state.2.free state.2 after.2 ∧
      ∀ key path, settings.tablePath? key = some path → state.1.InSync key path state.2 →
        after.1.InSync key path after.2

instance (settings : Settings) : Std.Refl (Restored settings) :=
  ⟨fun _ placed => ⟨placed, .refl _ _, fun _ _ _ => id⟩⟩

instance (settings : Settings) : IsTrans (HeapRegistry × Disk) (Restored settings) := by
  refine ⟨fun state middle after first second placed => ?_⟩
  obtain ⟨placedMiddle, touchesMiddle, inSyncMiddle⟩ := first placed
  obtain ⟨placedAfter, touchesAfter, inSyncAfter⟩ := second placedMiddle
  exact ⟨placedAfter, touchesMiddle.trans_free touchesAfter,
    fun key path located => inSyncAfter key path located ∘ inSyncMiddle key path located⟩

theorem restored_restore (settings : Settings) (schemas : List Schema) :
    Step.Respects (Restored settings) (restore schemas) := by
  have each (schema : Schema) : Step.Respects (Restored settings) (restoreOne schema) := by
    rintro ⟨registry, disk⟩ placed
    have restored := restores schema registry disk
    obtain ⟨placedAfter, touches⟩ := placed.restores restored
    exact ⟨placedAfter, touches, fun key path located inSync => inSync.restores placed located restored⟩
  exact (Step.Respects.forM each schemas).bind fun _ => Std.Refl.refl

end HeapRegistry

namespace Engine

variable {engine next : Engine}

/-- An engine with settings, its files at the paths that these give, and a catalog of tables that can be
stored. -/
structure Placed (settings : Settings) (engine : Engine) (disk : Disk) : Prop where
  path_eq : engine.catalog.path = settings.catalogPath?
  lawful : Catalog.Lawful engine.catalog.tables
  heaps : engine.heaps.Placed settings disk

/-- A database that is opened has its files in place, and its heaps are backed by them. -/
theorem placed_of_openWith {result : Except EngineError Engine} (unshared : disk.Unshared)
    (ran : (openWith settings).runOn disk = (result, after)) :
    (after.Unshared ∧ Touches disk.free disk after) ∧
      (∀ engine, result = .ok engine → engine.Placed settings after) ∧
      ∀ key path, settings.tablePath? key = some path → disk.FewPagesAt (Disk.locate path) →
        after.FewPagesAt (Disk.locate path) ∧
          ∀ engine, result = .ok engine → engine.heaps.InSync key path after := by
  have opens := opensWith settings disk
  rw [ran] at opens
  cases opens with
  | unread =>
    exact ⟨⟨unshared, .refl _ _⟩, fun engine never => (by cases never),
      fun key path located few => ⟨few, fun engine never => by cases never⟩⟩
  | read catalog count heaps _ found restored =>
    have filled := HeapRegistry.restored_restore settings catalog.schemas
      (.empty settings.dataDirectory settings.dataFileExtension, disk)
    rw [restored] at filled
    obtain ⟨placed, touches, inSync⟩ := filled (HeapRegistry.placed_empty settings unshared)
    refine ⟨⟨placed.unshared, touches⟩, fun engine opened => ?placed, fun key path located few => ?inSync⟩
    case placed =>
      cases count with
      | error => cases opened
      | ok count =>
        cases opened
        exact ⟨(Catalog.openAt_eq_ok found).1, Catalog.lawful_of_openAt found, placed⟩
    case inSync =>
      have inSync := inSync key path located (HeapRegistry.inSync_empty few _ _)
      refine ⟨inSync.few, fun engine opened => ?_⟩
      cases count with
      | error => cases opened
      | ok count =>
        cases opened
        exact inSync

/-- Writing the catalog touches the place of its file. -/
theorem touches_of_persists {catalog : Catalog} (persists : Catalog.Persists catalog disk after)
    (path_eq : catalog.path = settings.catalogPath?) (unshared : disk.Unshared) :
    after.Unshared ∧ Touches settings.catalogPlaces disk after := by
  cases persists with
  | nowhere => exact ⟨unshared, .refl _ _⟩
  | attempted path result _ somewhere ran =>
    have replaces := Disk.replaces path catalog.fileBytes disk
    rw [ran] at replaces
    refine ⟨unshared.replaces replaces, replaces.touches.mono ?_⟩
    rintro _ rfl
    rw [path_eq] at somewhere
    exact congrArg (Option.map Disk.locate) somewhere

namespace Moves

variable {state after : Engine × Disk}

/-- A move about a table touches the places of its file and of the catalog at most. -/
theorem placed (moves : Moves table state after) (placed : state.1.Placed settings state.2) :
    after.1.Placed settings after.2 ∧
      Touches (settings.tablePlaces (Text.fold table) ∪ settings.catalogPlaces) state.2 after.2 := by
  have lawful := moves.lawful placed.lawful
  cases moves with
  | entered engine disk schema after named accepted persists =>
    obtain ⟨unshared, touches⟩ := touches_of_persists persists placed.path_eq placed.heaps.unshared
    exact ⟨⟨placed.path_eq, lawful, placed.heaps.touched touches unshared⟩,
      touches.mono Set.subset_union_right⟩
  | removed engine disk after persists =>
    obtain ⟨unshared, touches⟩ := touches_of_persists persists placed.path_eq placed.heaps.unshared
    exact ⟨⟨placed.path_eq, lawful, placed.heaps.touched touches unshared⟩,
      touches.mono Set.subset_union_right⟩
  | created engine disk schema result heaps after named creates =>
    obtain ⟨kept, touches⟩ := placed.heaps.creates creates
    rw [named] at touches
    exact ⟨⟨placed.path_eq, lawful, kept⟩, touches.mono Set.subset_union_left⟩
  | dropped engine disk result heaps after drops =>
    obtain ⟨kept, touches⟩ := placed.heaps.drops drops
    exact ⟨⟨placed.path_eq, lawful, kept⟩, touches.mono Set.subset_union_left⟩
  | worked engine disk heap next after present stays =>
    obtain ⟨kept, touches⟩ := placed.heaps.stays present stays
    exact ⟨⟨placed.path_eq, lawful, kept⟩, touches.mono Set.subset_union_left⟩

/-- A move about a table changes no other one in memory. -/
theorem others (moves : Moves table state after) (other : key ≠ Text.fold table) :
    after.1.catalog.tables[key]? = state.1.catalog.tables[key]? ∧
      after.1.heaps.heaps[key]? = state.1.heaps.heaps[key]? := by
  cases moves with
  | entered engine disk schema after named =>
    exact ⟨(Catalog.getElem?_withTable _ _ _).trans (if_neg (named ▸ other)), rfl⟩
  | removed => exact ⟨(Catalog.getElem?_withoutTable _ _ _).trans (if_neg other), rfl⟩
  | created engine disk schema result heaps after named creates =>
    refine ⟨rfl, ?_⟩
    cases creates with
    | known => rfl
    | failed => rfl
    | inMemory => exact (HeapRegistry.getElem?_insert _ _ _ _).trans (if_neg (named ▸ other))
    | created => exact (HeapRegistry.getElem?_insert _ _ _ _).trans (if_neg (named ▸ other))
  | dropped engine disk result heaps after drops => exact ⟨rfl, (drops.getElem?_eq key).trans (if_neg other)⟩
  | worked => exact ⟨rfl, (HeapRegistry.getElem?_insert _ _ _ _).trans (if_neg other)⟩

/-- A table that the file of the catalog lists stays listed while moves are about another table, unless the
file of that one is the file of the catalog. -/
theorem lists {schema : Schema} (moves : Moves table state after)
    (placed : state.1.Placed settings state.2) (other : key ≠ Text.fold table)
    (apart : ∀ location ∈ settings.catalogPlaces, location ∉ settings.tablePlaces (Text.fold table))
    (known : state.1.catalog.tables[key]? = some schema)
    (lists : Catalog.Lists settings.catalogPath? key schema state.2) :
    Catalog.Lists settings.catalogPath? key schema after.2 := by
  have still := (moves.others other).1.trans known
  have lawful := moves.lawful placed.lawful
  have intact := placed.heaps.unshared.intact
  have elsewhere (file : String) (somewhere : settings.catalogPath? = some file) :
      Disk.locate file ∉ settings.tablePlaces (Text.fold table) :=
    apart _ (congrArg (Option.map Disk.locate) somewhere)
  rw [← placed.path_eq] at lists elsewhere ⊢
  cases moves with
  | entered engine disk schema after named accepted persists =>
    exact persists.lists intact lawful still lists
  | removed engine disk after persists => exact persists.lists intact lawful still lists
  | created engine disk schema result heaps after named creates =>
    have touches := (placed.heaps.creates creates).2
    rw [named] at touches
    exact lists.touches intact touches elsewhere
  | dropped engine disk result heaps after drops =>
    exact lists.touches intact (placed.heaps.drops drops).2 elsewhere
  | worked engine disk heap next after present stays =>
    exact lists.touches intact (placed.heaps.stays present stays).2 elsewhere

end Moves

end Engine

end RowStore
