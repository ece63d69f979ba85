import RowStore.Proofs.Reference.Statements

/-!
Tables created and dropped by an engine that keeps the tables of a store. The file of the new table and
that of the catalog are the only ones that are written, and the file of the dropped one is gone.
-/

namespace RowStore

open Disk (Opens Spares place)

variable {directory key table : String} {store : Store} {relation : Relation} {schema : Schema}
  {engine : Engine} {disk middle after : Disk} {number : Nat} {named : String → Prop}

/-- The file of a new table is a new file. -/
theorem tidy_of_opens (tidy : disk.Tidy directory named) (plain : '/' ∉ key.toList)
    (free : ¬ named (tableFile key))
    (opens : Opens (Path.join directory (tableFile key)) true disk (.ok number) after) :
    (after.Tidy directory fun name => name = tableFile key ∨ named name) ∧
      ∀ name other, name ≠ tableFile key → Spares (place directory name) other disk after := by
  have located := locate_table directory plain
  cases opens with
  | present middle number furnished holds =>
    have entry := holds.entry
    rw [located] at entry
    exact absurd ((tidy.furnished furnished).named _ _ entry) free
  | created middle furnished leads vacant =>
    rw [located] at vacant ⊢
    refine ⟨(tidy.furnished furnished).addFile _ _, fun name other different => ?_⟩
    exact furnished.spares.trans (Disk.spares_addFile (Disk.place_ne_nil _ _)
      (fun same => different (Disk.place_inj.mp same)) (by simp [vacant]) _)

namespace HeapFile

theorem carries_empty (schema : Schema) (backing : Option PageFile) :
    HeapFile.Carries ⟨schema, [], .empty, backing⟩ ⟨schema, []⟩ := by
  refine ⟨rfl, fun id bytes found => ?_, .nil⟩
  simp [bytesAt?] at found

end HeapFile

namespace Store

variable {specs : List ColumnSpec}

theorem exists_create_error (unfit : (store (Text.fold table)).isSome = true ∨ ∀ columns,
      specs.mapM ColumnSpec.column = .ok columns → (⟨table, columns⟩ : Schema).check ≠ .ok ()) :
    ∃ fault, store.create table specs = .error fault := by
  rw [create]
  rcases unfit with present | unfit
  · exact ⟨_, if_pos present⟩
  · split
    · exact ⟨_, rfl⟩
    · cases built : specs.mapM ColumnSpec.column with
      | error fault => exact ⟨fault, rfl⟩
      | ok columns =>
        have rejected := unfit columns built
        cases checked : (⟨table, columns⟩ : Schema).check with
        | ok _ => exact absurd checked rejected
        | error fault => exact ⟨_, by simp only [checked, bind, Except.bind, Except.mapError]; rfl⟩

theorem create_eq_ok (absent : store (Text.fold schema.table) = none)
    (built : specs.mapM ColumnSpec.column = .ok schema.columns) (accepted : schema.check = .ok ()) :
    store.create schema.table specs = .ok (store.enter schema.table (some ⟨schema, []⟩)) := by
  rw [create, absent]
  simp only [built, accepted, bind, Except.bind, Except.mapError]
  rfl

end Store

namespace Engine.Represents

theorem contains_eq (represents : Represents directory store engine disk) (table : String) :
    engine.catalog.contains table = (store (Text.fold table)).isSome := by
  rw [Catalog.contains_eq_isSome, represents.get?_catalog, Option.isSome_map]

theorem store_eq_none (represents : Represents directory store engine disk)
    (absent : engine.catalog.contains table = false) : store (Text.fold table) = none := by
  rwa [represents.contains_eq, Option.isSome_eq_false_iff, Option.isNone_iff_eq_none] at absent

/-- Every table of the catalog is accepted when one that is accepted is entered. -/
theorem check_withTable (represents : Represents directory store engine disk)
    (accepted : schema.check = .ok ()) {other : Schema}
    (member : other ∈ (engine.catalog.withTable schema).schemas) : other.check = .ok () := by
  obtain ⟨key, found⟩ := (Catalog.mem_schemas _ _).mp member
  rw [Catalog.getElem?_withTable] at found
  split at found
  · cases found
    exact accepted
  · exact represents.check_of_mem ((Catalog.mem_schemas _ _).mpr ⟨key, found⟩)

theorem check_withoutTable (represents : Represents directory store engine disk) {other : Schema}
    (member : other ∈ (engine.catalog.withoutTable table).schemas) : other.check = .ok () := by
  obtain ⟨key, found⟩ := (Catalog.mem_schemas _ _).mp member
  rw [Catalog.getElem?_withoutTable] at found
  split at found
  · cases found
  · exact represents.check_of_mem ((Catalog.mem_schemas _ _).mpr ⟨key, found⟩)

/-- The engine and the disk once a table is in the catalog and its heap is there. -/
theorem entered (represents : Represents directory store engine disk)
    (absent : store (Text.fold schema.table) = none) (plain : '/' ∉ schema.table.toList)
    (accepted : schema.check = .ok ())
    (persists : Catalog.Persists (engine.catalog.withTable schema) disk middle)
    (opens : Opens (Path.join directory (tableFile (Text.fold schema.table))) true middle
      (.ok number) after) :
    Represents directory (store.enter schema.table (some ⟨schema, []⟩))
      { engine with
        catalog := engine.catalog.withTable schema
        heaps := engine.heaps.insert schema.table ⟨schema, [], .empty,
          some ⟨Path.join directory (tableFile (Text.fold schema.table)), number⟩⟩ } after := by
  have plainKey := Text.not_mem_fold (by decide) plain
  have written := represents.filed.written_of_persists represents.tidy.takes persists
    represents.path_eq fun _ => represents.check_withTable accepted
  have tidyMiddle := written.tidy _ represents.tidy
  have free : ¬ (tableFile (Text.fold schema.table) = "catalog.meta" ∨
      store.Names (tableFile (Text.fold schema.table))) :=
    not_or.mpr ⟨tableFile_ne_catalogFile _, Store.not_names_tableFile absent⟩
  obtain ⟨tidy, sparesNew⟩ := tidy_of_opens tidyMiddle plainKey free opens
  apply represents.changed
  case path_eq => rfl
  case directory_eq => rfl
  case extension_eq => rfl
  case listed => exact Catalog.getElem?_withTable engine.catalog schema
  case given => exact HeapRegistry.getElem?_insert engine.heaps schema.table _
  case valid =>
    rintro _ ⟨⟩
    exact ⟨rfl, plainKey, accepted⟩
  case own =>
    exact .some ⟨HeapFile.carries_empty schema _, number,
      HeapFile.mirrors_of_opens tidyMiddle.intact opens schema⟩
  case spares =>
    exact fun key other different _ => (written.spares _ _ (tableFile_ne_catalogFile key)).trans
      (sparesNew _ _ fun same => different (tableFile_injective same))
  case tidy =>
    refine tidy.mono fun name known => ?_
    rcases known with rfl | catalog | named
    · exact .inr ⟨_, by rw [Store.enter_self]; exact Option.some_ne_none _, rfl⟩
    · exact .inl catalog
    · exact named.enter _ _
  case filed =>
    refine written.filed.spared ?_ fun other _ =>
      sparesNew _ other (Ne.symm (tableFile_ne_catalogFile _))
    have entered : (engine.catalog.withTable schema).tables[Text.fold schema.table]? = some schema := by
      rw [Catalog.getElem?_withTable, if_pos rfl]
    exact List.ne_nil_of_mem ((Catalog.mem_schemas _ _).mpr ⟨_, entered⟩)

/-- A CREATE that meets no fault of the disk enters an empty table where there is none of its name. -/
theorem create (represents : Represents directory store engine disk) (specs : List ColumnSpec)
    (plain : '/' ∉ table.toList)
    (works : ∀ fault,
      ((createTable table specs).runOn (engine, disk)).1 ≠ .error (.storage (.disk fault))) :
    Follows directory store ((createTable table specs).runOn (engine, disk))
      (store.create table specs) := by
  have creates := createsTable table specs engine disk
  generalize (createTable table specs).runOn (engine, disk) = outcome at creates works ⊢
  obtain ⟨result, next, after⟩ := outcome
  cases creates with
  | rejected error unfit =>
    rw [represents.contains_eq] at unfit
    obtain ⟨fault, failed⟩ := Store.exists_create_error unfit
    rw [failed]
    exact .failed _ _ _ _ represents
  | created schema middle heap heaps after named built accepted absent persists creates =>
    subst named
    have missing := represents.store_eq_none absent
    have somewhere := HeapRegistry.path?_eq_some represents.directory_eq represents.extension_eq
      schema.table
    rw [Store.create_eq_ok missing built accepted]
    cases creates with
    | inMemory _ nowhere => cases nowhere.symm.trans somewhere
    | created path number _ _ found opens =>
      cases found.symm.trans somewhere
      exact .succeeded _ _ _ _ (represents.entered missing plain accepted persists opens)
  | takenBack schema middle error heaps between after named accepted absent persists creates
      persistsAgain =>
    subst named
    cases creates with
    | known present =>
      rw [HeapRegistry.contains_eq_isSome, HeapRegistry.get?,
        represents.closed _ (represents.store_eq_none absent)] at present
      cases present
    | failed path fault => exact absurd rfl (works fault)

/-- The engine and the disk once the heap of a table is gone and the catalog without it. -/
theorem removed (represents : Represents directory store engine disk)
    (present : store (Text.fold table) = some relation)
    (persists : Catalog.Persists (engine.catalog.withoutTable table)
      (disk.eraseNode (place directory (tableFile (Text.fold table)))) after) :
    Represents directory (store.enter table none)
      { engine with
        catalog := engine.catalog.withoutTable table
        heaps := engine.heaps.erase table } after := by
  obtain ⟨heap, given, houses⟩ := represents.held _ relation present
  obtain ⟨number, mirrors⟩ := houses.mirrors
  have entry := entry_of_mirrors (represents.valid _ relation present).2.1 mirrors
  have sparesGone (name : String) (other : Nat) (different : name ≠ tableFile (Text.fold table)) :
      Spares (place directory name) other disk
        (disk.eraseNode (place directory (tableFile (Text.fold table)))) :=
    Disk.spares_eraseNode (Disk.place_ne_nil _ _) (fun same => different (Disk.place_inj.mp same))
      (by simp [entry])
  have tidyMiddle := represents.tidy.eraseNode (tableFile (Text.fold table))
  have filed := represents.filed.spared (List.ne_nil_of_mem (represents.mem_schemas present))
    fun other _ => sparesGone _ other (Ne.symm (tableFile_ne_catalogFile _))
  have written := filed.written_of_persists tidyMiddle.takes persists represents.path_eq
    fun _ => represents.check_withoutTable
  apply represents.changed
  case path_eq => rfl
  case directory_eq => rfl
  case extension_eq => rfl
  case listed => exact Catalog.getElem?_withoutTable engine.catalog table
  case given => exact HeapRegistry.getElem?_erase engine.heaps table
  case valid => rintro _ ⟨⟩
  case own => exact .none
  case spares =>
    exact fun key other different _ =>
      (sparesGone _ _ fun same => different (tableFile_injective same)).trans
        (written.spares _ _ (tableFile_ne_catalogFile key))
  case tidy =>
    refine (written.tidy _ tidyMiddle).mono fun name known => ?_
    rcases known with catalog | ⟨different, catalog | ⟨key, present, rfl⟩⟩
    · exact .inl catalog
    · exact .inl catalog
    · refine .inr ⟨key, ?_, rfl⟩
      rwa [Store.enter_other _ _ fun own => different (own ▸ rfl)]
  case filed => exact written.filed

/-- A DROP takes the table with its file. -/
theorem drop (represents : Represents directory store engine disk) (table : String) :
    Follows directory store ((dropTable table).runOn (engine, disk)) (store.drop table) := by
  have drops := dropsTable table engine disk
  generalize (dropTable table).runOn (engine, disk) = outcome at drops ⊢
  obtain ⟨result, next, after⟩ := outcome
  rw [Store.drop, Store.table]
  have known := represents.get?_catalog table
  cases present : store (Text.fold table) with
  | none =>
    rw [present, Option.map_none] at known
    cases drops with
    | missing => exact .failed _ _ _ _ represents
    | failed schema error heaps after found => cases known.symm.trans found
    | dropped schema heaps middle after found => cases known.symm.trans found
  | some relation =>
    obtain ⟨heap, given, houses⟩ := represents.held _ relation present
    obtain ⟨number, mirrors⟩ := houses.mirrors
    have removal := mirrors.holds.runOn_removeFile
    rw [locate_table directory (represents.valid _ relation present).2.1] at removal
    rw [present, Option.map_some] at known
    cases drops with
    | missing absent => cases known.symm.trans absent
    | failed schema error heaps after found drops =>
      rcases drops.cause_of_error rfl with ⟨_, absent⟩ | ⟨_, other, file, fault, same, backed, failed, _⟩
      · cases given.symm.trans absent
      · cases given.symm.trans same
        cases mirrors.backing_eq.symm.trans backed
        rw [removal] at failed
        cases failed
    | dropped schema heaps middle after found drops persists =>
      generalize done : (Except.ok () : Except StorageError Unit) = result at drops
      cases drops with
      | missing => cases done
      | closed other same nowhere =>
        cases given.symm.trans same
        cases mirrors.backing_eq.symm.trans nowhere
      | removed other file result middle same backed ran =>
        cases given.symm.trans same
        cases mirrors.backing_eq.symm.trans backed
        cases removal.symm.trans ran
        exact .succeeded _ _ _ _ (represents.removed present persists)

end Engine.Represents

end RowStore
