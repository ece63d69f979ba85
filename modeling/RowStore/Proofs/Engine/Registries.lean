import RowStore.Proofs.Catalog.Loading
import RowStore.Proofs.Engine.Moves

/-!
The two registries of an engine, the schemas of its catalog and those of its open heaps. They agree on
the name of a table for good, unless a `DROP` of the table cannot remove its file: the heap is closed by
then, and the catalog keeps a table that nothing can be done with any more.
-/

namespace RowStore

namespace HeapRegistry

variable {registry next : HeapRegistry} {disk after : Disk} {schemas : List Schema}

/-- The schema of the heap under a folded name. -/
def schemaAt? (registry : HeapRegistry) (key : String) : Option Schema :=
  registry.heaps[key]?.map HeapFile.schema

theorem schemaAt?_insert (registry : HeapRegistry) (table : String) (heap : HeapFile) :
    (registry.insert table heap).schemaAt? =
      Function.update registry.schemaAt? (Text.fold table) (some heap.schema) := by
  funext key
  rw [Function.update_apply, schemaAt?, getElem?_insert]
  split <;> rfl

theorem schemaAt?_erase (registry : HeapRegistry) (table : String) :
    (registry.erase table).schemaAt? =
      Function.update registry.schemaAt? (Text.fold table) none := by
  funext key
  rw [Function.update_apply, schemaAt?, getElem?_erase]
  split <;> rfl

/-- A registry of heaps of the given tables, each under its folded name. -/
def Serves (registry : HeapRegistry) (schemas : List Schema) : Prop :=
  ∀ key schema, registry.schemaAt? key = some schema → schema ∈ schemas ∧ key = Text.fold schema.table

/-- What opening the heap of a table makes of the schemas, if it succeeds. -/
theorem Restores.schemaAt?_eq {schema : Schema}
    (restores : Restores schema registry disk (.ok ()) next after) :
    next.schemaAt? = Function.update registry.schemaAt? (Text.fold schema.table) (some schema) := by
  cases restores with
  | inMemory => exact schemaAt?_insert registry _ _
  | opened path heap after somewhere opened =>
    obtain ⟨_, _, _, heap_eq⟩ := HeapFile.openAt_eq_ok opened
    have same : heap.schema = schema := by rw [heap_eq]; rfl
    rw [schemaAt?_insert, same]

theorem serves_empty (directory : Option String) (extension : String) (schemas : List Schema) :
    (empty directory extension).Serves schemas := by
  intro key schema never
  simp [schemaAt?, empty] at never

/-- Heaps that are opened one after another serve their tables, each of them. -/
theorem serves_of_forM (serves : registry.Serves schemas) (disk : Disk) (listed : List Schema)
    (members : ∀ schema ∈ listed, schema ∈ schemas)
    (done : ((listed.forM restoreOne).runOn (registry, disk)).1 = .ok ()) :
    ((listed.forM restoreOne).runOn (registry, disk)).2.1.Serves schemas ∧
      ∀ schema : Schema,
        schema ∈ listed ∨ (registry.schemaAt? (Text.fold schema.table)).isSome = true →
        (((listed.forM restoreOne).runOn (registry, disk)).2.1.schemaAt?
          (Text.fold schema.table)).isSome = true := by
  induction listed generalizing registry disk with
  | nil => exact ⟨serves, fun schema given => given.resolve_left List.not_mem_nil⟩
  | cons first rest ih =>
    have restored := restores first registry disk
    rw [Step.runOn_forM_cons] at done ⊢
    generalize (restoreOne first).runOn (registry, disk) = outcome at restored done ⊢
    obtain ⟨result, middle, between⟩ := outcome
    cases result with
    | error error => cases done
    | ok _ =>
      have entered := restored.schemaAt?_eq
      have servesMiddle : middle.Serves schemas := by
        intro key schema found
        rw [entered, Function.update_apply] at found
        split at found
        · cases found
          exact ⟨members first List.mem_cons_self, by assumption⟩
        · exact serves key schema found
      obtain ⟨servesLater, open_⟩ :=
        ih servesMiddle between (fun schema member => members schema (List.mem_cons_of_mem _ member))
          done
      refine ⟨servesLater, fun schema given => open_ schema ?_⟩
      rw [entered, Function.update_apply]
      split
      · exact .inr rfl
      · rename_i other
        rcases given with member | present
        · rcases List.mem_cons.mp member with rfl | later
          · exact absurd rfl other
          · exact .inl later
        · exact .inr present

end HeapRegistry

namespace Engine

variable {engine next : Engine} {disk after : Disk} {table key : String}

/-- What the two registries have under a folded name: the schema of the catalog and that of the heap. -/
def registered (engine : Engine) (key : String) : Option Schema × Option Schema :=
  (engine.catalog.tables[key]?, engine.heaps.schemaAt? key)

/-- The registries agree on a folded name: both have a table there, with one schema, or neither has. -/
def AgreesOn (engine : Engine) (key : String) : Prop :=
  (engine.registered key).1 = (engine.registered key).2

/-- A folded name that only the catalog knows. -/
def Stranded (engine : Engine) (key : String) : Prop :=
  (engine.registered key).1 ≠ none ∧ (engine.registered key).2 = none

/-- An engine as it is opened, in memory or with whatever the disk holds. -/
inductive Opened : Engine → Prop where
  | inMemory : Opened .inMemory
  | onDisk (settings : Settings) (disk : Disk) (engine : Engine) (after : Disk)
      (ran : (openWith settings).runOn disk = (.ok engine, after)) : Opened engine

/-- A statement, and the disk that it finds when it is run. -/
structure Attempt where
  statement : Statement
  disk : Disk

/-- The engine that a statement leaves, whether it succeeds or fails. -/
def afterAttempt (engine : Engine) (attempt : Attempt) : Engine :=
  ((execute attempt.statement).runOn (engine, attempt.disk)).2.1

/-- The engine that statements leave one after another. Between them anything may happen to the
disk. -/
def reach (engine : Engine) (attempts : List Attempt) : Engine := attempts.foldl afterAttempt engine

/-- A `DROP` of the table of a folded name that cannot remove the file of its heap, though there is
one. -/
def Strands (engine : Engine) (key : String) (attempt : Attempt) : Prop :=
  ∃ table schema heap file fault, attempt.statement = .dropTable table ∧ Text.fold table = key ∧
    engine.handle table = .ok (schema, heap) ∧ heap.backing = some file ∧
    ((Disk.removeFile file.path).runOn attempt.disk).1 = .error fault ∧ fault ≠ .missing

/-- Whether one of the statements is such a `DROP` where it is run. -/
def StrandsOnce (engine : Engine) (key : String) : List Attempt → Prop
  | [] => False
  | attempt :: rest => engine.Strands key attempt ∨ (engine.afterAttempt attempt).StrandsOnce key rest

/-- A table of the catalog with which, whatever the disk does, no statement can do anything: it has no
heap to work on, it cannot be dropped, and it cannot be created. -/
structure Stuck (engine : Engine) (table : String) : Prop where
  known : engine.catalog.contains table = true
  unusable : (engine.handle table).isOk = false
  undroppable : ∀ disk, ((dropTable table).runOn (engine, disk)).1.isOk = false
  uncreatable : ∀ specs disk, ((createTable table specs).runOn (engine, disk)).1.isOk = false

theorem stuck_iff_stranded (engine : Engine) (table : String) :
    engine.Stuck table ↔ engine.Stranded (Text.fold table) := by
  have heapless : (engine.registered (Text.fold table)).2 = none ↔ engine.heaps.get? table = none :=
    Option.map_eq_none_iff
  constructor
  · rintro ⟨known, unusable, _, _⟩
    rw [Catalog.contains_eq_isSome, Option.isSome_iff_exists] at known
    obtain ⟨schema, known⟩ := known
    refine ⟨fun none => ?_, heapless.mpr ?_⟩
    · rw [registered, ← Catalog.get?, known] at none
      cases none
    · cases present : engine.heaps.get? table with
      | none => rfl
      | some heap =>
        rw [(handle_eq_ok_iff _ _ schema heap).mpr ⟨known, present⟩] at unusable
        cases unusable
  · rintro ⟨known, absent⟩
    rw [heapless] at absent
    obtain ⟨schema, known⟩ := Option.ne_none_iff_exists'.mp known
    have known : engine.catalog.get? table = some schema := known
    have contained : engine.catalog.contains table = true := by
      rw [Catalog.contains_eq_isSome, known, Option.isSome_some]
    refine ⟨contained, by rw [handle, known, absent]; rfl, fun disk => ?undroppable,
      fun specs disk => ?uncreatable⟩
    case undroppable =>
      have drops := dropsTable table engine disk
      generalize (dropTable table).runOn (engine, disk) = outcome at drops ⊢
      obtain ⟨result, next, after⟩ := outcome
      cases drops with
      | missing => rfl
      | failed => rfl
      | dropped _ _ _ _ _ drops =>
        obtain ⟨_, heap, present, _⟩ := drops.exists_of_ok rfl
        rw [absent] at present
        cases present
    case uncreatable =>
      have creates := createsTable table specs engine disk
      generalize (createTable table specs).runOn (engine, disk) = outcome at creates ⊢
      obtain ⟨result, next, after⟩ := outcome
      cases creates with
      | rejected => rfl
      | takenBack => rfl
      | created _ _ _ _ _ _ _ _ unknown =>
        rw [contained] at unknown
        cases unknown

/-- The registries of an engine agree as it is opened. -/
theorem Opened.agrees (opened : Opened engine) (key : String) : engine.AgreesOn key := by
  cases opened with
  | inMemory => rfl
  | onDisk settings disk _ after ran =>
    obtain ⟨catalog, count, heaps, found, restored, rfl⟩ := openWith_eq_ok ran
    obtain ⟨_, keyed, _⟩ := Catalog.openAt_eq_ok found
    have served := HeapRegistry.serves_of_forM
      (HeapRegistry.serves_empty settings.dataDirectory settings.dataFileExtension catalog.schemas)
      disk catalog.schemas fun schema member => member
    rw [HeapRegistry.restore, Step.runOn_bind] at restored
    generalize (catalog.schemas.forM HeapRegistry.restoreOne).runOn
      (.empty settings.dataDirectory settings.dataFileExtension, disk) = outcome at restored served
    obtain ⟨result, reached, left⟩ := outcome
    cases result with
    | error error => cases restored
    | ok _ =>
      cases restored
      obtain ⟨serves, open_⟩ := served rfl
      change catalog.tables[key]? = heaps.schemaAt? key
      cases held : heaps.schemaAt? key with
      | some schema =>
        obtain ⟨member, rfl⟩ := serves key schema held
        exact keyed.getElem?_of_mem member
      | none =>
        cases known : catalog.tables[key]? with
        | none => rfl
        | some schema =>
          have present := open_ schema (.inl ((catalog.mem_schemas schema).mpr ⟨key, known⟩))
          rw [← keyed key schema known, held] at present
          cases present

/-- A statement about the rows of a table leaves both registries. -/
theorem Works.registered_eq {statement : Statement} {state after : Engine × Disk}
    (works : Works statement state after) : after.1.registered = state.1.registered := by
  cases works with
  | idle => rfl
  | worked table heap next after named present stays =>
    have own : state.1.heaps.schemaAt? (Text.fold table) = some heap.schema :=
      congrArg (Option.map HeapFile.schema) present
    have same : (state.1.heaps.insert table next).schemaAt? = state.1.heaps.schemaAt? := by
      rw [HeapRegistry.schemaAt?_insert, stays.schema_eq, ← own, Function.update_eq_self]
    funext key
    exact congrArg (Prod.mk state.1.catalog.tables[key]?) (congrFun same key)

/-- What a statement does to the registries. -/
inductive Registers (engine : Engine) (attempt : Attempt) (next : Engine) : Prop where
  | kept (same : next.registered = engine.registered)
  | entered (schema : Schema) (absent : (engine.registered (Text.fold schema.table)).1 = none)
      (changed : next.registered =
        Function.update engine.registered (Text.fold schema.table) (some schema, some schema))
  | removed (table : String) (present : (engine.registered (Text.fold table)).2 ≠ none)
      (changed : next.registered =
        Function.update engine.registered (Text.fold table) (none, none))
  | stranded (table : String) (strands : engine.Strands (Text.fold table) attempt)
      (changed : next.registered =
        Function.update engine.registered (Text.fold table)
          ((engine.registered (Text.fold table)).1, none))

theorem registered_withTable (engine : Engine) (schema : Schema) (heap : HeapFile)
    (same : heap.schema = schema) :
    registered { engine with
        catalog := engine.catalog.withTable schema, heaps := engine.heaps.insert schema.table heap } =
      Function.update engine.registered (Text.fold schema.table) (some schema, some schema) := by
  funext key
  rw [registered, Catalog.getElem?_withTable, HeapRegistry.schemaAt?_insert, same,
    Function.update_apply, Function.update_apply]
  split <;> rfl

theorem registered_withoutHeap (engine : Engine) (table : String) :
    registered { engine with heaps := engine.heaps.erase table } =
      Function.update engine.registered (Text.fold table)
        ((engine.registered (Text.fold table)).1, none) := by
  funext key
  rw [registered, HeapRegistry.schemaAt?_erase, Function.update_apply, Function.update_apply]
  split
  · rename_i same
    rw [same]
    rfl
  · rfl

theorem registered_withoutTable (engine : Engine) (table : String) :
    registered { engine with
        catalog := engine.catalog.withoutTable table, heaps := engine.heaps.erase table } =
      Function.update engine.registered (Text.fold table) (none, none) := by
  funext key
  rw [registered, Catalog.getElem?_withoutTable, HeapRegistry.schemaAt?_erase,
    Function.update_apply, Function.update_apply]
  split <;> rfl

theorem registers_createTable (table : String) (specs : List ColumnSpec) (engine : Engine)
    (disk : Disk) :
    engine.Registers ⟨.createTable table specs, disk⟩
      (engine.afterAttempt ⟨.createTable table specs, disk⟩) := by
  have creates := createsTable table specs engine disk
  rw [afterAttempt, execute]
  generalize (createTable table specs).runOn (engine, disk) = outcome at creates ⊢
  obtain ⟨result, next, after⟩ := outcome
  cases creates with
  | rejected => exact .kept rfl
  | created schema middle heap heaps _ named built accepted absent persists creates =>
    obtain ⟨rfl, _, same⟩ := creates.of_ok
    rw [← named, Catalog.contains_eq_isSome, Option.isSome_eq_false_iff,
      Option.isNone_iff_eq_none] at absent
    exact .entered schema absent (registered_withTable engine schema heap same)
  | takenBack schema middle error heaps between _ named accepted absent persists creates again =>
    cases creates.of_error
    rw [Catalog.contains_eq_isSome, Option.isSome_eq_false_iff, Option.isNone_iff_eq_none] at absent
    refine .kept (funext fun key => ?_)
    rw [registered, registered, Catalog.getElem?_withoutTable, Catalog.getElem?_withTable, named]
    split
    · rename_i same
      rw [same, ← Catalog.get?, absent]
    · rfl

theorem registers_dropTable (table : String) (engine : Engine) (disk : Disk) :
    engine.Registers ⟨.dropTable table, disk⟩ (engine.afterAttempt ⟨.dropTable table, disk⟩) := by
  have drops := dropsTable table engine disk
  rw [afterAttempt, execute]
  generalize (dropTable table).runOn (engine, disk) = outcome at drops ⊢
  obtain ⟨result, next, after⟩ := outcome
  cases drops with
  | missing => exact .kept rfl
  | failed schema error heaps _ known drops =>
    obtain ⟨rfl, _⟩ | ⟨rfl, heap, file, fault, present, somewhere, failed, other⟩ :=
      drops.cause_of_error rfl
    · exact .kept rfl
    · have handled := (handle_eq_ok_iff engine table schema heap).mpr ⟨known, present⟩
      exact .stranded table ⟨table, schema, heap, file, fault, rfl, rfl, handled, somewhere, failed, other⟩
        (registered_withoutHeap engine table)
  | dropped schema heaps middle _ known drops persists =>
    obtain ⟨rfl, heap, present, _⟩ := drops.exists_of_ok rfl
    refine .removed table ?_ (registered_withoutTable engine table)
    have held : (engine.registered (Text.fold table)).2 = some heap.schema :=
      congrArg (Option.map HeapFile.schema) present
    rw [held]
    exact Option.some_ne_none _

theorem registers (engine : Engine) (attempt : Attempt) :
    engine.Registers attempt (engine.afterAttempt attempt) := by
  obtain ⟨statement, disk⟩ := attempt
  cases statement with
  | createTable table specs => exact registers_createTable table specs engine disk
  | dropTable table => exact registers_dropTable table engine disk
  | insert table rows => exact .kept (works_insert table rows (engine, disk)).registered_eq
  | select query => exact .kept rfl
  | update target columns values condition =>
    exact .kept (works_update target columns values condition (engine, disk)).registered_eq
  | delete target condition => exact .kept (works_delete target condition (engine, disk)).registered_eq
  | other kind => exact .kept rfl

/-- A table is stranded by a `DROP` that strands it. -/
theorem Strands.stranded {attempt : Attempt} (strands : engine.Strands key attempt) :
    (engine.afterAttempt attempt).Stranded key := by
  obtain ⟨table, schema, heap, file, fault, named, rfl, handled, somewhere, failed, other⟩ := strands
  obtain ⟨statement, disk⟩ := attempt
  cases named
  obtain ⟨known, present⟩ := (handle_eq_ok_iff engine table schema heap).mp handled
  have drops := dropsTable table engine disk
  rw [afterAttempt, execute]
  generalize (dropTable table).runOn (engine, disk) = outcome at drops ⊢
  obtain ⟨result, next, after⟩ := outcome
  cases drops with
  | missing absent =>
    rw [known] at absent
    cases absent
  | dropped _ heaps _ _ _ drops =>
    obtain ⟨_, _, found, harmless⟩ := drops.exists_of_ok rfl
    cases present.symm.trans found
    exact absurd (harmless file fault somewhere failed) other
  | failed _ error heaps _ _ drops =>
    obtain ⟨_, absent⟩ | ⟨rfl, _⟩ := drops.cause_of_error rfl
    · rw [present] at absent
      cases absent
    · change Stranded { engine with heaps := engine.heaps.erase table } (Text.fold table)
      rw [Stranded, registered_withoutHeap, Function.update_self]
      refine ⟨fun none => ?_, rfl⟩
      rw [registered, ← Catalog.get?, known] at none
      cases none

/-- A stranded table stays stranded. -/
theorem Stranded.registers {attempt : Attempt} (stranded : engine.Stranded key)
    (registers : engine.Registers attempt next) : next.Stranded key := by
  obtain ⟨known, absent⟩ := stranded
  rw [Stranded]
  cases registers with
  | kept same =>
    rw [same]
    exact ⟨known, absent⟩
  | entered schema unknown changed =>
    have other : key ≠ Text.fold schema.table := by
      rintro rfl
      exact known unknown
    rw [changed, Function.update_of_ne other]
    exact ⟨known, absent⟩
  | removed table present changed =>
    have other : key ≠ Text.fold table := by
      rintro rfl
      exact present absent
    rw [changed, Function.update_of_ne other]
    exact ⟨known, absent⟩
  | stranded table strands changed =>
    rw [changed, Function.update_apply]
    split
    · rename_i same
      rw [← same]
      exact ⟨known, rfl⟩
    · exact ⟨known, absent⟩

/-- On a name that no statement strands the registries go on to agree. -/
theorem AgreesOn.registers {attempt : Attempt} (agrees : engine.AgreesOn key)
    (goes : ¬ engine.Strands key attempt) (registers : engine.Registers attempt next) :
    next.AgreesOn key := by
  rw [AgreesOn]
  cases registers with
  | kept same =>
    rw [same]
    exact agrees
  | entered schema unknown changed =>
    rw [changed, Function.update_apply]
    split
    · rfl
    · exact agrees
  | removed table present changed =>
    rw [changed, Function.update_apply]
    split
    · rfl
    · exact agrees
  | stranded table strands changed =>
    have other : key ≠ Text.fold table := by
      rintro rfl
      exact goes strands
    rw [changed, Function.update_of_ne other]
    exact agrees

/-- A stranded table is not agreed on. -/
theorem Stranded.not_agrees (stranded : engine.Stranded key) : ¬ engine.AgreesOn key :=
  fun agrees => stranded.1 (agrees.trans stranded.2)

theorem Stranded.reach (stranded : engine.Stranded key) (attempts : List Attempt) :
    (engine.reach attempts).Stranded key := by
  induction attempts generalizing engine with
  | nil => exact stranded
  | cons attempt rest ih => exact ih (stranded.registers (engine.registers attempt))

theorem stranded_of_strandsOnce {attempts : List Attempt} (strands : engine.StrandsOnce key attempts) :
    (engine.reach attempts).Stranded key := by
  induction attempts generalizing engine with
  | nil => exact strands.elim
  | cons attempt rest ih =>
    rcases strands with now | later
    · exact now.stranded.reach rest
    · exact ih later

theorem agrees_of_not_strandsOnce {attempts : List Attempt} (agrees : engine.AgreesOn key)
    (goes : ¬ engine.StrandsOnce key attempts) : (engine.reach attempts).AgreesOn key := by
  induction attempts generalizing engine with
  | nil => exact agrees
  | cons attempt rest ih =>
    rw [StrandsOnce, not_or] at goes
    exact ih (agrees.registers goes.1 (engine.registers attempt)) goes.2

/-- The registries of an engine agree on a name after any statements, whatever failed, unless one of
them was a `DROP` that could not remove the file of the table; exactly then the table is stuck. -/
theorem registries_reach (opened : Opened engine) (attempts : List Attempt) :
    (∀ key, (engine.reach attempts).AgreesOn key ↔ ¬ engine.StrandsOnce key attempts) ∧
      ∀ table, (engine.reach attempts).Stuck table ↔
        engine.StrandsOnce (Text.fold table) attempts := by
  have agrees_iff (key : String) :
      (engine.reach attempts).AgreesOn key ↔ ¬ engine.StrandsOnce key attempts :=
    ⟨fun agrees strands => (stranded_of_strandsOnce strands).not_agrees agrees,
      agrees_of_not_strandsOnce (opened.agrees key)⟩
  refine ⟨agrees_iff, fun table => ?_⟩
  rw [stuck_iff_stranded]
  constructor
  · intro stranded
    by_contra goes
    exact stranded.not_agrees ((agrees_iff _).mpr goes)
  · exact stranded_of_strandsOnce

/-- A database in a directory of a disk that has nothing yet. -/
def inDirectory : Engine :=
  ⟨.inDirectory "db", ⟨some "db/catalog.meta", {}⟩, .empty (some "db") "dat"⟩

theorem opened_inDirectory : Opened inDirectory :=
  .onDisk (.inDirectory "db") .empty inDirectory .empty (by with_unfolding_all rfl)

/-- A directory with the given entry in the place of the file of a table. -/
def directoryWith (entry : Option Node) : Disk :=
  let directory := Disk.empty.setNode ["db"] .directory
  match entry with
  | some node => directory.setNode ["db", "T.dat"] node
  | none => directory

/-- A table is created, and dropped once its file is gone, with the given entry in its place. -/
def createAndDrop (entry : Option Node) : List Attempt :=
  [⟨.createTable "t" [⟨"a", "INT", none⟩], .empty⟩, ⟨.dropTable "t", directoryWith entry⟩]

/-- The database once the table is created. -/
def withTable : Engine := inDirectory.afterAttempt ⟨.createTable "t" [⟨"a", "INT", none⟩], .empty⟩

theorem handle_withTable : withTable.handle "t" =
    .ok (⟨"t", [.ofType "a" .int]⟩,
      ⟨⟨"t", [.ofType "a" .int]⟩, [], .empty, some ⟨"db/T.dat", 1⟩⟩) := by
  with_unfolding_all rfl

/-- A table whose file is missing is dropped all the same, and the registries agree. -/
theorem registries_reach_missing_file : Opened inDirectory ∧
    ∀ key, (inDirectory.reach (createAndDrop none)).AgreesOn key := by
  refine ⟨opened_inDirectory,
    fun key => ((registries_reach opened_inDirectory _).1 key).mpr ?_⟩
  rintro (⟨table, _, _, _, _, named, _⟩ |
    ⟨table, schema, heap, file, fault, named, _, handled, somewhere, failed, other⟩ | never)
  · cases named
  · cases named
    cases handle_withTable.symm.trans handled
    cases somewhere
    have missing : ((Disk.removeFile "db/T.dat").runOn (directoryWith none)).1 = .error .missing := by
      with_unfolding_all rfl
    cases missing.symm.trans failed
    exact other rfl
  · exact never

/-- A table with a directory in the place of its file is not dropped, but stays in the catalog without
a heap: it is stuck. -/
theorem not_registries_agree_directory : Opened inDirectory ∧
    ¬ (∀ key, (inDirectory.reach (createAndDrop (some .directory))).AgreesOn key) ∧
    (inDirectory.reach (createAndDrop (some .directory))).Stuck "t" := by
  have failed : ((Disk.removeFile "db/T.dat").runOn (directoryWith (some .directory))).1 =
      .error .isDirectory := by
    with_unfolding_all rfl
  have strands : withTable.Strands (Text.fold "t") ⟨.dropTable "t", directoryWith (some .directory)⟩ :=
    ⟨"t", _, _, _, .isDirectory, rfl, rfl, handle_withTable, rfl, failed, by decide⟩
  have once : inDirectory.StrandsOnce (Text.fold "t") (createAndDrop (some .directory)) :=
    .inr (.inl strands)
  have stranded := stranded_of_strandsOnce once
  exact ⟨opened_inDirectory, fun agrees => stranded.not_agrees (agrees _),
    (stuck_iff_stranded _ _).mpr stranded⟩

end Engine

end RowStore
