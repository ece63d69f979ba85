import RowStore.Proofs.Catalog.Filed
import RowStore.Proofs.Heap.Apart
import RowStore.Proofs.Reference.Plans

/-!
An engine in a data directory that keeps the tables of a store. The catalog lists them, in memory and in
its file, and each has a heap with its rows that is the mirror of a file of its own.
-/

namespace RowStore

open Disk (OnlyFile Spares place)

variable {directory key table : String} {store : Store} {relation : Relation}
  {heap next : HeapFile} {disk after : Disk} {engine : Engine}

/-- The names of the files that a store needs in its data directory. -/
def Store.Names (store : Store) (name : String) : Prop :=
  name = "catalog.meta" ∨ ∃ key, store key ≠ none ∧ name = tableFile key

/-- A store of tables that can be listed and kept in files: their schemas are valid, and their names
hold no slash. -/
def Store.Valid (store : Store) : Prop :=
  ∀ key relation, store key = some relation →
    key = Text.fold relation.schema.table ∧ '/' ∉ key.toList ∧ relation.schema.check = .ok ()

theorem Store.Names.enter {name : String} (named : store.Names name) (table : String)
    (relation : Relation) : (store.enter table (some relation)).Names name := by
  rcases named with catalog | ⟨key, known, rfl⟩
  · exact .inl catalog
  · refine .inr ⟨key, ?_, rfl⟩
    by_cases own : key = Text.fold table
    · rw [own, Store.enter_self]
      exact Option.some_ne_none _
    · rwa [Store.enter_other _ _ own]

theorem Store.not_names_tableFile (absent : store key = none) : ¬ store.Names (tableFile key) := by
  rintro (same | ⟨other, known, same⟩)
  · exact tableFile_ne_catalogFile _ same
  · rw [← tableFile_injective same] at known
    exact known absent

theorem locate_table (directory : String) (plain : '/' ∉ key.toList) :
    Disk.locate (Path.join directory (tableFile key)) = place directory (tableFile key) :=
  Disk.locate_join directory (isFileName_tableFile plain)

theorem HeapRegistry.path?_eq_some {registry : HeapRegistry}
    (directory_eq : registry.directory = some directory) (extension_eq : registry.extension = "dat")
    (table : String) :
    registry.path? table = some (Path.join directory (tableFile (Text.fold table))) := by
  rw [path?, directory_eq, extension_eq, Option.map_some, tableFile]

namespace HeapFile

/-- The heap of a table in a data directory: it has the rows of a relation, and is the mirror of the
table's file. -/
structure Houses (heap : HeapFile) (directory key : String) (relation : Relation) (disk : Disk) :
    Prop where
  carries : heap.Carries relation
  mirrors : ∃ number, heap.Mirrors ⟨Path.join directory (tableFile key), number⟩ disk

theorem Houses.spared (houses : heap.Houses directory key relation disk) (plain : '/' ∉ key.toList)
    (spares : ∀ number, disk.node? (Disk.place directory (tableFile key)) = some (.file number) →
      Spares (Disk.place directory (tableFile key)) number disk after) :
    heap.Houses directory key relation after := by
  obtain ⟨number, mirrors⟩ := houses.mirrors
  have entry := mirrors.holds.entry
  rw [locate_table directory plain] at entry
  refine ⟨houses.carries, number, mirrors.spared ?_⟩
  rw [locate_table directory plain]
  exact spares number entry

end HeapFile

namespace Engine

/-- An engine and a disk that keep the tables of a store in a data directory. -/
structure Represents (directory : String) (store : Store) (engine : Engine) (disk : Disk) : Prop where
  path_eq : engine.catalog.path = some (Catalog.pathIn directory)
  directory_eq : engine.heaps.directory = some directory
  extension_eq : engine.heaps.extension = "dat"
  valid : store.Valid
  listed : ∀ key : String, engine.catalog.tables[key]? = (store key).map Relation.schema
  held : ∀ key relation, store key = some relation →
    ∃ heap, engine.heaps.heaps[key]? = some heap ∧ heap.Houses directory key relation disk
  closed : ∀ key, store key = none → engine.heaps.heaps[key]? = none
  tidy : disk.Tidy directory store.Names
  filed : Catalog.Filed directory disk engine.catalog.schemas

namespace Represents

theorem keyed (represents : Represents directory store engine disk) :
    Catalog.Keyed engine.catalog.tables := by
  intro key schema found
  rw [represents.listed, Option.map_eq_some_iff] at found
  obtain ⟨relation, present, rfl⟩ := found
  exact (represents.valid key relation present).1

theorem check_of_mem (represents : Represents directory store engine disk) {schema : Schema}
    (member : schema ∈ engine.catalog.schemas) : schema.check = .ok () := by
  obtain ⟨key, found⟩ := (Catalog.mem_schemas _ _).mp member
  rw [represents.listed, Option.map_eq_some_iff] at found
  obtain ⟨relation, present, rfl⟩ := found
  exact (represents.valid key relation present).2.2

theorem mem_schemas (represents : Represents directory store engine disk)
    (present : store key = some relation) : relation.schema ∈ engine.catalog.schemas :=
  (Catalog.mem_schemas _ _).mpr ⟨key, by rw [represents.listed, present, Option.map_some]⟩

theorem get?_catalog (represents : Represents directory store engine disk) (table : String) :
    engine.catalog.get? table = (store (Text.fold table)).map Relation.schema :=
  represents.listed (Text.fold table)

/-- The engine has the tables of the store, and no other. -/
theorem shows (represents : Represents directory store engine disk) : engine.Shows store := by
  intro table
  rw [handle, represents.get?_catalog, Store.table]
  cases present : store (Text.fold table) with
  | none => exact .failed _ _
  | some relation =>
    obtain ⟨heap, given, houses⟩ := represents.held _ relation present
    rw [← HeapRegistry.get?] at given
    simp only [Option.map_some, given]
    exact .answered _ _ ⟨rfl, houses.carries⟩

/-- Two tables do not share a file. -/
theorem apart (represents : Represents directory store engine disk) {name other : String}
    {first second : Nat} (different : name ≠ other)
    (entry : disk.node? (Disk.place directory name) = some (.file first))
    (otherEntry : disk.node? (Disk.place directory other) = some (.file second)) : second ≠ first := by
  rintro rfl
  exact different (represents.tidy.apart _ _ _ entry otherEntry)

theorem entry_of_mirrors {number : Nat} (plain : '/' ∉ key.toList)
    (mirrors : heap.Mirrors ⟨Path.join directory (tableFile key), number⟩ disk) :
    disk.node? (Disk.place directory (tableFile key)) = some (.file number) := by
  rw [← locate_table directory plain]
  exact mirrors.holds.entry

/-- A change to one table. Its heap is what the store has for it, and the files of all others are
spared. -/
theorem changed (represents : Represents directory store engine disk) {changed : Engine}
    {entry : Option Relation} {heap? : Option HeapFile}
    (path_eq : changed.catalog.path = engine.catalog.path)
    (directory_eq : changed.heaps.directory = engine.heaps.directory)
    (extension_eq : changed.heaps.extension = engine.heaps.extension)
    (listed : ∀ key : String, changed.catalog.tables[key]? =
      if key = Text.fold table then entry.map Relation.schema else engine.catalog.tables[key]?)
    (given : ∀ key : String, changed.heaps.heaps[key]? =
      if key = Text.fold table then heap? else engine.heaps.heaps[key]?)
    (valid : ∀ relation, entry = some relation → Text.fold table = Text.fold relation.schema.table ∧
      '/' ∉ (Text.fold table).toList ∧ relation.schema.check = .ok ())
    (own : Option.Rel (fun heap relation => heap.Houses directory (Text.fold table) relation after)
      heap? entry)
    (spares : ∀ key number, key ≠ Text.fold table →
      disk.node? (place directory (tableFile key)) = some (.file number) →
      Spares (place directory (tableFile key)) number disk after)
    (tidy : after.Tidy directory (store.enter table entry).Names)
    (filed : Catalog.Filed directory after changed.catalog.schemas) :
    Represents directory (store.enter table entry) changed after := by
  constructor
  case path_eq => exact path_eq.trans represents.path_eq
  case directory_eq => exact directory_eq.trans represents.directory_eq
  case extension_eq => exact extension_eq.trans represents.extension_eq
  case valid =>
    intro key relation found
    by_cases same : key = Text.fold table
    · subst same
      rw [Store.enter_self] at found
      exact valid relation found
    · rw [Store.enter_other _ _ same] at found
      exact represents.valid key relation found
  case listed =>
    intro key
    rw [listed]
    by_cases same : key = Text.fold table
    · rw [if_pos same, same, Store.enter_self]
    · rw [if_neg same, Store.enter_other _ _ same, represents.listed]
  case held =>
    intro key relation found
    rw [given]
    by_cases same : key = Text.fold table
    · subst same
      rw [Store.enter_self] at found
      subst found
      cases own with
      | some houses => exact ⟨_, if_pos rfl, houses⟩
    · rw [Store.enter_other _ _ same] at found
      obtain ⟨heap, kept, houses⟩ := represents.held key relation found
      refine ⟨heap, by rw [if_neg same, kept], ?_⟩
      exact houses.spared (represents.valid key relation found).2.1 fun number => spares key number same
  case closed =>
    intro key missing
    rw [given]
    by_cases same : key = Text.fold table
    · rw [same, Store.enter_self] at missing
      subst missing
      rw [if_pos same]
      cases own
      rfl
    · rw [Store.enter_other _ _ same] at missing
      rw [if_neg same, represents.closed key missing]
  case tidy => exact tidy
  case filed => exact filed

/-- Calls on the heap of a table are seen in this table only. -/
theorem exchanged (represents : Represents directory store engine disk)
    (present : store (Text.fold table) = some relation)
    (given : engine.heaps.get? table = some heap)
    (calls : HeapFile.Calls heap disk next after) {rows : List Row}
    (rows_perm : (next.rows.map Prod.snd).Perm rows) :
    Represents directory (store.enter table (some { relation with rows }))
      (engine.withHeap table next) after := by
  have valid := represents.valid _ relation present
  obtain ⟨_, same, houses⟩ := represents.held _ relation present
  cases given.symm.trans same
  obtain ⟨number, mirrors⟩ := houses.mirrors
  obtain ⟨mirrorsNext, onlyFile⟩ := mirrors.calls calls
  have carries : next.Carries { relation with rows } :=
    ⟨calls.schema_eq.trans houses.carries.schema_eq,
      calls.readable mirrors.sound houses.carries.readable, rows_perm⟩
  have spares (name : String) (other : Nat) (different : tableFile (Text.fold table) ≠ name)
      (entry : disk.node? (place directory name) = some (.file other)) :
      Spares (place directory name) other disk after :=
    onlyFile.spares (represents.apart different (entry_of_mirrors valid.2.1 mirrors) entry)
  apply represents.changed
  case path_eq => rfl
  case directory_eq => rfl
  case extension_eq => rfl
  case listed =>
    intro key
    split
    · rename_i own
      rw [own]
      exact (represents.listed _).trans (by rw [present, Option.map_some, Option.map_some])
    · rfl
  case given => exact HeapRegistry.getElem?_insert engine.heaps table next
  case valid =>
    rintro _ ⟨⟩
    exact valid
  case own => exact .some ⟨carries, number, mirrorsNext⟩
  case spares =>
    exact fun key other different => spares _ other fun own =>
      different (tableFile_injective own).symm
  case tidy =>
    exact (represents.tidy.onlyFile onlyFile calls.refuses_eq).mono fun name named =>
      named.enter table _
  case filed =>
    refine represents.filed.spared ?_ fun other => spares _ other (tableFile_ne_catalogFile _)
    exact List.ne_nil_of_mem (represents.mem_schemas present)

end Represents

end Engine

end RowStore
