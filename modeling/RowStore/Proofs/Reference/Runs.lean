import RowStore.Proofs.Heap.Reopening
import RowStore.Proofs.Reference.Tables

/-!
Runs of statements and restarts in a data directory that starts out empty. A store of bags tells which
statements succeed and what every query answers, however often the database is closed and opened again.
-/

namespace RowStore

variable {directory table : String} {store : Store} {engine : Engine} {disk : Disk}

/-- A disk that takes all writes and has no files in a data directory, but can have that of the
catalog. -/
structure Disk.Fresh (directory : String) (disk : Disk) : Prop where
  intact : disk.Intact
  takes : ∀ write, disk.refuses write = false
  vacant : ∀ name, disk.node? (place directory name) = none
  writable : ∀ bytes, ((replaceFile (Catalog.pathIn directory) bytes).runOn disk).1 = .ok ()

/-- The heap of a table, or one without pages. -/
def HeapRegistry.heapOf (registry : HeapRegistry) (key : String) : HeapFile :=
  registry.heaps[key]?.getD (.inMemory ⟨key, []⟩)

namespace Engine

/-- The pages of every table can be numbered with 32 bits. -/
def FewPages (engine : Engine) : Prop :=
  ∀ (key : String) (heap : HeapFile), engine.heaps.heaps[key]? = some heap →
    heap.pages.length < UInt32.size

/-- An engine without tables. -/
def vacant (directory : String) : Engine :=
  ⟨.inDirectory directory, ⟨some (Catalog.pathIn directory), {}⟩, .empty (some directory) "dat"⟩

/-- Does what is requested. A database that cannot be opened again stays closed. -/
def perform (settings : Settings) (engine : Engine) (disk : Disk) :
    Request → Except EngineError Unit × Engine × Disk
  | .execute statement =>
    let (result, state) := (execute statement).runOn (engine, disk)
    (result.map fun _ => (), state)
  | .restart =>
    match (openWith settings).runOn disk with
    | (.ok opened, disk) => (.ok (), opened, disk)
    | (.error error, disk) => (.error error, { engine with heaps := engine.heaps.closeAll }, disk)

/-- Which of some requests succeed one after another, and what the last one leaves. -/
def performAll (settings : Settings) (engine : Engine) (disk : Disk) :
    List Request → List Bool × Engine × Disk
  | [] => ([], engine, disk)
  | request :: rest =>
    let (result, next, after) := perform settings engine disk request
    let (later, last) := performAll settings next after rest
    (result.isOk :: later, last)

/-- A statement of which nothing goes wrong but what is wrong with it: it creates no table with a slash
in its name, as an INSERT it succeeds, it meets no fault of the disk, and pages stay few. -/
structure Smooth (statement : Statement) (result : Except EngineError String) (next : Engine) :
    Prop where
  plain : ∀ table specs, statement = .createTable table specs → '/' ∉ table.toList
  inserted : ∀ table rows, statement = .insert table rows → result.isOk
  works : ∀ fault, result ≠ .error (.storage (.disk fault))
  few : next.FewPages

/-- All statements among some requests are smooth. -/
def Undisturbed (settings : Settings) (engine : Engine) (disk : Disk) : List Request → Prop
  | [] => True
  | request :: rest =>
    (∀ statement, request = .execute statement →
      Smooth statement ((execute statement).runOn (engine, disk)).1
        ((execute statement).runOn (engine, disk)).2.1) ∧
      Undisturbed settings (perform settings engine disk request).2.1
        (perform settings engine disk request).2.2 rest

/-- An engine that is seen as a store: its catalog lists the tables, and queries answer the same
bags. -/
structure Refines (engine : Engine) (store : Store) : Prop where
  listed : ∀ key : String, engine.catalog.tables[key]? = (store key).map Relation.schema
  selected : ∀ table relation, store.table table = .ok relation →
    ∃ found, engine.run ⟨[.all], .table table none, none⟩ = .ok found ∧ SameBag found relation
  answers : ∀ query, Agrees SameBag (engine.run query) (store.answer query)

theorem getElem?_vacant (directory key : String) :
    (vacant directory).catalog.tables[key]? = none ∧ (vacant directory).heaps.heaps[key]? = none := by
  simp [vacant, HeapRegistry.empty]

theorem schemas_vacant (directory : String) : (vacant directory).catalog.schemas = [] := by
  rw [List.eq_nil_iff_forall_not_mem]
  intro schema member
  obtain ⟨key, found⟩ := (Catalog.mem_schemas _ _).mp member
  rw [(getElem?_vacant directory key).1] at found
  cases found

theorem represents_vacant (fresh : disk.Fresh directory) :
    Represents directory .empty (vacant directory) disk := by
  constructor
  case path_eq => rfl
  case directory_eq => rfl
  case extension_eq => rfl
  case valid => exact fun key relation never => by cases never
  case listed => exact fun key => (getElem?_vacant directory key).1
  case held => exact fun key relation never => by cases never
  case closed => exact fun key _ => (getElem?_vacant directory key).2
  case tidy =>
    refine ⟨fresh.intact, fresh.takes, fun name other number found => ?_, fun name number found => ?_⟩
    · simp [fresh.vacant] at found
    · simp [fresh.vacant] at found
  case filed =>
    rw [schemas_vacant]
    exact .unwritten (fresh.vacant _) fresh.writable

/-- A database is opened with the catalog of its file and the heaps of all tables in it. -/
theorem runOn_openWith (settings : Settings) {catalog : Catalog} {count : Nat} {heaps : HeapRegistry}
    {after : Disk} (read : Catalog.openAt disk settings.catalogPath? = .ok catalog)
    (restored : (HeapRegistry.restore catalog.schemas).runOn
      (.empty settings.dataDirectory settings.dataFileExtension, disk) = (.ok count, heaps, after)) :
    (openWith settings).runOn disk = (.ok ⟨settings, catalog, heaps⟩, after) := by
  rw [openWith]
  simp only [Step.runOn_bind, Step.runOn_get, Step.runOn_set, Step.runOn_pure, Step.runOn_ofExcept,
    read, restored, Except.mapError]

namespace Represents

theorem mem_keys (represents : Represents directory store engine disk) (key : String) :
    key ∈ engine.catalog.schemas.map (fun schema => Text.fold schema.table) ↔
      ∃ relation, store key = some relation := by
  rw [List.mem_map]
  constructor
  · rintro ⟨schema, member, rfl⟩
    obtain ⟨key, known⟩ := (Catalog.mem_schemas _ _).mp member
    rw [represents.listed, Option.map_eq_some_iff] at known
    obtain ⟨relation, present, rfl⟩ := known
    rw [← (represents.valid key relation present).1]
    exact ⟨relation, present⟩
  · rintro ⟨relation, present⟩
    exact ⟨relation.schema, represents.mem_schemas present,
      (represents.valid key relation present).1.symm⟩

theorem canOpen (represents : Represents directory store engine disk) (few : engine.FewPages)
    {schema : Schema} (member : schema ∈ engine.catalog.schemas) :
    (HeapRegistry.empty (some directory) "dat").CanOpen disk schema
      (engine.heaps.heapOf (Text.fold schema.table)) := by
  obtain ⟨key, known⟩ := (Catalog.mem_schemas _ _).mp member
  rw [represents.listed, Option.map_eq_some_iff] at known
  obtain ⟨relation, present, rfl⟩ := known
  obtain ⟨rfl, _, _⟩ := represents.valid key relation present
  obtain ⟨heap, given, houses⟩ := represents.held _ relation present
  obtain ⟨number, mirrors⟩ := houses.mirrors
  have opened := mirrors.runOn_openAt (few _ heap given)
  rw [houses.carries.schema_eq] at opened
  rw [HeapRegistry.heapOf, given, Option.getD_some]
  exact ⟨_, HeapRegistry.path?_eq_some rfl rfl _, opened⟩

/-- The heaps that are opened are those that were closed. -/
theorem getElem?_enter (represents : Represents directory store engine disk) (key : String) :
    ((HeapRegistry.empty (some directory) "dat").enter engine.heaps.heapOf
      engine.catalog.schemas).heaps[key]? = engine.heaps.heaps[key]? := by
  rw [HeapRegistry.getElem?_enter]
  cases present : store key with
  | none =>
    rw [if_neg, represents.closed key present]
    · simp [HeapRegistry.empty]
    · rw [represents.mem_keys, present]
      rintro ⟨relation, never⟩
      cases never
  | some relation =>
    obtain ⟨heap, given, _⟩ := represents.held key relation present
    rw [if_pos ((represents.mem_keys key).mpr ⟨relation, present⟩), HeapRegistry.heapOf, given,
      Option.getD_some]

/-- What is in the files is all that counts: a database that is opened again has the same tables. -/
theorem reopened (represents : Represents directory store engine disk) (few : engine.FewPages) :
    ∃ opened, (openWith (.inDirectory directory)).runOn disk = (.ok opened, disk) ∧
      Represents directory store opened disk ∧ opened.FewPages := by
  obtain ⟨catalog, read, path_eq, tables_eq, schemas_eq⟩ :=
    represents.filed.exists_openAt represents.keyed
  have restored := HeapRegistry.runOn_restore engine.heaps.heapOf engine.catalog.schemas
    fun schema => represents.canOpen few
  have heaps_eq := represents.getElem?_enter
  obtain ⟨directory_eq, extension_eq⟩ := HeapRegistry.enter_directory (.empty (some directory) "dat")
    engine.heaps.heapOf engine.catalog.schemas
  rw [← schemas_eq] at restored
  refine ⟨_, runOn_openWith (.inDirectory directory) read restored, ?_, ?_⟩
  all_goals rw [schemas_eq]
  · constructor
    case path_eq => exact path_eq
    case directory_eq => exact directory_eq
    case extension_eq => exact extension_eq
    case valid => exact represents.valid
    case listed => exact fun key => (tables_eq key).trans (represents.listed key)
    case held =>
      intro key relation present
      obtain ⟨heap, given, houses⟩ := represents.held key relation present
      exact ⟨heap, (heaps_eq key).trans given, houses⟩
    case closed => exact fun key missing => (heaps_eq key).trans (represents.closed key missing)
    case tidy => exact represents.tidy
    case filed =>
      rw [schemas_eq]
      exact represents.filed
  · intro key heap given
    exact few key heap ((heaps_eq key).symm.trans given)

/-- A query changes nothing, and is answered exactly if the store answers it. -/
theorem select (represents : Represents directory store engine disk) (query : Select) :
    Follows directory store ((Engine.execute (.select query)).runOn (engine, disk))
      (store.execute (.select query)) := by
  have ran : (Engine.execute (.select query)).runOn (engine, disk) =
      (engine.select query, engine, disk) := rfl
  have agrees := represents.shows.run query
  rw [ran, Engine.select, Store.execute]
  generalize engine.run query = found at agrees
  generalize store.answer query = answer at agrees
  cases agrees with
  | answered => exact .succeeded _ _ _ _ represents
  | failed => exact .failed _ _ _ _ represents

theorem execute (represents : Represents directory store engine disk) {statement : Statement}
    (smooth : Smooth statement ((Engine.execute statement).runOn (engine, disk)).1
      ((Engine.execute statement).runOn (engine, disk)).2.1) :
    Follows directory store ((Engine.execute statement).runOn (engine, disk))
      (store.execute statement) := by
  cases statement with
  | createTable table columns =>
    exact represents.create columns (smooth.plain _ _ rfl) smooth.works
  | dropTable table => exact represents.drop table
  | insert table rows => exact represents.insert rows (smooth.inserted _ _ rfl)
  | select query => exact represents.select query
  | update target columns values condition =>
    exact represents.update target columns values condition
  | delete target condition => exact represents.delete target condition
  | other kind => exact .failed _ _ _ _ represents

/-- One request: it succeeds exactly if it does for the store, and the engine keeps what the store
is then. -/
theorem perform (represents : Represents directory store engine disk) (few : engine.FewPages)
    (request : Request)
    (smooth : ∀ statement, request = .execute statement →
      Smooth statement ((Engine.execute statement).runOn (engine, disk)).1
        ((Engine.execute statement).runOn (engine, disk)).2.1) :
    (Engine.perform (.inDirectory directory) engine disk request).1.isOk = (store.perform request).1 ∧
      Represents directory (store.perform request).2
        (Engine.perform (.inDirectory directory) engine disk request).2.1
        (Engine.perform (.inDirectory directory) engine disk request).2.2 ∧
      (Engine.perform (.inDirectory directory) engine disk request).2.1.FewPages := by
  cases request with
  | restart =>
    obtain ⟨opened, ran, kept, fewOpened⟩ := represents.reopened few
    rw [Engine.perform, ran]
    exact ⟨rfl, kept, fewOpened⟩
  | execute statement =>
    have smooth := smooth statement rfl
    have follows := represents.execute smooth
    have fewAfter := smooth.few
    rw [Engine.perform, Store.perform]
    generalize (Engine.execute statement).runOn (engine, disk) = outcome at follows fewAfter
    generalize store.execute statement = changed at follows
    cases follows with
    | succeeded answer next engine disk represents => exact ⟨rfl, represents, fewAfter⟩
    | failed error fault engine disk represents => exact ⟨rfl, represents, fewAfter⟩

/-- Requests one after another. -/
theorem performAll (represents : Represents directory store engine disk) (few : engine.FewPages)
    (requests : List Request) (smooth : Undisturbed (.inDirectory directory) engine disk requests) :
    (Engine.performAll (.inDirectory directory) engine disk requests).1 =
        (store.performAll requests).1 ∧
      Represents directory (store.performAll requests).2
        (Engine.performAll (.inDirectory directory) engine disk requests).2.1
        (Engine.performAll (.inDirectory directory) engine disk requests).2.2 := by
  induction requests generalizing store engine disk with
  | nil => exact ⟨rfl, represents⟩
  | cons request rest ih =>
    obtain ⟨first, later⟩ := smooth
    obtain ⟨same, kept, fewNext⟩ := represents.perform few request first
    obtain ⟨results, last⟩ := ih kept fewNext later
    rw [Engine.performAll, Store.performAll]
    exact ⟨congrArg₂ List.cons same results, last⟩

theorem refines (represents : Represents directory store engine disk) : engine.Refines store := by
  constructor
  case listed => exact represents.listed
  case selected =>
    intro table relation present
    have agrees := represents.shows.run ⟨[.all], .table table none, none⟩
    have answered : store.answer ⟨[.all], .table table none, none⟩ = .ok relation := by
      rw [Store.answer, Store.resolve, present]
      simp [Store.compileWhere, bind, Except.bind, pure, Except.pure, Relation.labelled,
        Relation.filter_always, Except.mapError, isStar]
    rw [answered] at agrees
    generalize engine.run ⟨[.all], .table table none, none⟩ = found at agrees
    cases agrees with
    | answered found _ same => exact ⟨found, rfl, same⟩
  case answers => exact represents.shows.run

end Represents

theorem smooth_of_isOk {statement : Statement} {result : Except EngineError String} {next : Engine}
    (plain : ∀ table specs, statement = .createTable table specs → '/' ∉ table.toList)
    (succeeds : result.isOk = true)
    (few : (next.heaps.heaps.toList.all fun entry => entry.2.pages.length < UInt32.size) = true) :
    Smooth statement result next := by
  refine ⟨plain, fun _ _ _ => succeeds, fun fault failed => ?_, fun key heap given => ?_⟩
  · rw [failed] at succeeds
    cases succeeds
  · have member := Std.TreeMap.mem_toList_iff_getElem?_eq_some.mpr given
    simpa using List.all_eq_true.mp few _ member

theorem fresh_empty : Disk.empty.Fresh "db" := by
  refine ⟨Disk.intact_empty, fun _ => rfl, fun name => ?_, fun bytes => ?_⟩
  · simp [Disk.node?, Disk.empty, Disk.place]
  · cases bytes <;> with_unfolding_all rfl

theorem runOn_openWith_empty :
    (openWith (.inDirectory "db")).runOn .empty = (.ok (vacant "db"), .empty) := by
  with_unfolding_all rfl

end Engine

end RowStore
