import RowStore.Proofs.Catalog.Loading
import RowStore.Proofs.Engine.Outcome

/-!
What holds of an engine and its disk however they were reached: through any number of sessions, each
with statements of every kind, on a disk that takes all writes or refuses some of them by a plan.
-/

namespace RowStore

open Disk (Ready)

/-- The place of the catalog file, where no pages belong. -/
def Settings.catalogPlace? (settings : Settings) : Option Location :=
  settings.catalogPath?.map Disk.locate

namespace Engine

variable {settings : Settings} {engine next : Engine} {disk after : Disk} {table : String}
  {plan : Nat → Bool}

/-- An engine of sound heaps, each with the schema that the catalog has for its table. -/
structure Settled (settings : Settings) (engine : Engine) : Prop where
  path_eq : engine.catalog.path = settings.catalogPath?
  keyed : Catalog.Keyed engine.catalog.tables
  heap_sound : ∀ (key : String) (heap : HeapFile), engine.heaps.heaps[key]? = some heap → heap.Sound
  schema_eq : ∀ (key : String) (schema : Schema) (heap : HeapFile),
    engine.catalog.tables[key]? = some schema → engine.heaps.heaps[key]? = some heap →
      heap.schema = schema

/-- States that databases with the given settings reach on disks that take all writes. -/
inductive Reachable (settings : Settings) : Option Engine → Disk → Prop where
  | start (disk : Disk) (ready : disk.Ready settings.catalogPlace?) : Reachable settings none disk
  | opened (session : Option Engine) (disk : Disk) (result : Except EngineError Engine) (after : Disk)
      (reached : Reachable settings session disk)
      (ran : (openWith settings).runOn disk = (result, after)) :
      Reachable settings result.toOption after
  | executed (engine : Engine) (disk : Disk) (statement : Statement)
      (result : Except EngineError String) (next : Engine) (after : Disk)
      (reached : Reachable settings (some engine) disk)
      (ran : (execute statement).runOn (engine, disk) = (result, next, after)) :
      Reachable settings (some next) after

/-- States that databases with the given settings reach on disks that refuse writes by a plan. -/
inductive Endures (settings : Settings) (plan : Nat → Bool) : Option Engine → Disk → Prop where
  | start (disk : Disk) (orderly : disk.Orderly settings.catalogPlace? plan) :
      Endures settings plan none disk
  | opened (session : Option Engine) (disk : Disk) (result : Except EngineError Engine) (after : Disk)
      (reached : Endures settings plan session disk)
      (ran : (openWith settings).runOn disk = (result, after)) :
      Endures settings plan result.toOption after
  | executed (engine : Engine) (disk : Disk) (statement : Statement)
      (result : Except EngineError String) (next : Engine) (after : Disk)
      (reached : Endures settings plan (some engine) disk)
      (ran : (execute statement).runOn (engine, disk) = (result, next, after)) :
      Endures settings plan (some next) after

theorem Settled.handle_sound {schema : Schema} {heap : HeapFile} (settled : engine.Settled settings)
    (handled : engine.handle table = .ok (schema, heap)) : heap.Sound ∧ heap.schema = schema := by
  obtain ⟨known, present⟩ := (handle_eq_ok_iff _ _ _ _).mp handled
  exact ⟨settled.heap_sound _ heap present, settled.schema_eq _ schema heap known present⟩

/-- A disk that is fit for pages stays so when a catalog is written to its place. -/
theorem orderly_of_persists {catalog : Catalog} (persists : Catalog.Persists catalog disk after)
    (path_eq : catalog.path = settings.catalogPath?)
    (orderly : disk.Orderly settings.catalogPlace? plan) :
    after.Orderly settings.catalogPlace? plan := by
  cases persists with
  | nowhere => exact orderly
  | attempted path result after somewhere ran =>
    have replaces := Disk.replaces path catalog.fileBytes disk
    rw [ran] at replaces
    rw [Settings.catalogPlace?, ← path_eq, somewhere, Option.map_some] at orderly ⊢
    exact orderly.replaces replaces

theorem orderly_of_creates {schema : Schema} {heaps next : HeapRegistry}
    {result : Except StorageError HeapFile} (orderly : disk.Orderly settings.catalogPlace? plan)
    (creates : HeapRegistry.Creates schema heaps disk result next after) :
    after.Orderly settings.catalogPlace? plan := by
  cases creates with
  | known => exact orderly
  | inMemory => exact orderly
  | failed path fault after absent somewhere opens => exact orderly.opens opens
  | created path number after absent somewhere opens => exact orderly.opens opens

theorem orderly_of_drops {heaps next : HeapRegistry} {result : Except StorageError Unit}
    (orderly : disk.Orderly settings.catalogPlace? plan)
    (drops : HeapRegistry.Drops table heaps disk result next after) :
    after.Orderly settings.catalogPlace? plan := by
  cases drops with
  | missing => exact orderly
  | closed => exact orderly
  | removed heap file result after present somewhere ran =>
    have removes := Disk.removes file.path disk
    rw [ran] at removes
    exact orderly.removes removes

/-- Opening a database leaves the disk fit for pages, and what it opens is settled. -/
theorem settled_of_openWith (orderly : disk.Orderly settings.catalogPlace? plan) :
    ((openWith settings).runOn disk).2.Orderly settings.catalogPlace? plan ∧
      ∀ engine, ((openWith settings).runOn disk).1 = .ok engine → engine.Settled settings := by
  have opens := opensWith settings disk
  generalize (openWith settings).runOn disk = outcome at opens ⊢
  obtain ⟨outcome, after⟩ := outcome
  cases opens with
  | unread error failed => exact ⟨orderly, fun engine never => by cases never⟩
  | read catalog result heaps _ found ran =>
    obtain ⟨path_eq, keyed, origin⟩ := Catalog.openAt_eq_ok found
    have start := HeapRegistry.belongs_empty settings.dataDirectory settings.dataFileExtension
      catalog.schemas
    have restored : after.Orderly settings.catalogPlace? plan ∧
        ∀ count, result = .ok count → heaps.Belongs catalog.schemas := by
      rcases origin with none | ⟨file, somewhere, hasCatalog⟩
      · rw [none] at start ran ⊢
        cases ran
        exact ⟨orderly, fun count _ => start⟩
      · rw [Settings.catalogPlace?, somewhere, Option.map_some] at orderly ⊢
        have restored := HeapRegistry.belongs_of_restore orderly hasCatalog start
        rw [ran] at restored
        exact restored
    obtain ⟨orderlyAfter, belongs⟩ := restored
    cases result with
    | error error => exact ⟨orderlyAfter, fun engine never => by cases never⟩
    | ok count =>
      refine ⟨orderlyAfter, fun engine opened => ?_⟩
      cases opened
      have belongs := belongs count rfl
      refine ⟨path_eq, keyed, fun key heap present => (belongs key heap present).1, ?_⟩
      intro key schema heap known present
      obtain ⟨_, member, rfl⟩ := belongs key heap present
      rw [keyed.getElem?_of_mem member] at known
      exact Option.some.inj known

namespace Settled

/-- The heap of a table may be exchanged for a sound one with the same schema. -/
theorem withHeap {schema : Schema} {heap next : HeapFile} (settled : engine.Settled settings)
    (handled : engine.handle table = .ok (schema, heap)) (sound : next.Sound)
    (same : next.schema = heap.schema) : (engine.withHeap table next).Settled settings := by
  obtain ⟨known, present⟩ := (handle_eq_ok_iff _ _ _ _).mp handled
  refine ⟨settled.path_eq, settled.keyed, ?heap_sound, ?schema_eq⟩
  case heap_sound =>
    intro key found given
    rw [Engine.withHeap, HeapRegistry.getElem?_insert] at given
    split at given
    · cases given
      exact sound
    · exact settled.heap_sound key found given
  case schema_eq =>
    intro key other found entered given
    rw [Engine.withHeap, HeapRegistry.getElem?_insert] at given
    split at given
    · rename_i same_key
      cases given
      subst same_key
      rw [same]
      exact settled.schema_eq _ other heap entered present
    · exact settled.schema_eq key other found entered given

theorem ofCalls {schema : Schema} {heap next : HeapFile} (settled : engine.Settled settings)
    (orderly : disk.Orderly settings.catalogPlace? plan)
    (handled : engine.handle table = .ok (schema, heap))
    (calls : HeapFile.Calls heap disk next after) :
    (engine.withHeap table next).Settled settings ∧ after.Orderly settings.catalogPlace? plan := by
  have sound := (settled.handle_sound handled).1
  exact ⟨settled.withHeap handled (calls.sound sound) calls.schema_eq, orderly.calls sound calls⟩

theorem createsTable {specs : List ColumnSpec} {result : Except EngineError String}
    (settled : engine.Settled settings) (orderly : disk.Orderly settings.catalogPlace? plan)
    (creates : CreatesTable table specs engine disk result next after) :
    next.Settled settings ∧ after.Orderly settings.catalogPlace? plan := by
  cases creates with
  | rejected => exact ⟨settled, orderly⟩
  | created schema middle heap heaps after named built accepted absent persists creates =>
    obtain ⟨rfl, sound, rfl⟩ := creates.of_ok
    have orderlyMiddle := orderly_of_persists persists settled.path_eq orderly
    refine ⟨⟨settled.path_eq, settled.keyed.insert _, ?heap_sound, ?schema_eq⟩,
      orderly_of_creates orderlyMiddle creates⟩
    case heap_sound =>
      intro key found given
      rw [HeapRegistry.getElem?_insert] at given
      split at given
      · cases given
        exact sound
      · exact settled.heap_sound key found given
    case schema_eq =>
      intro key other found entered given
      rw [HeapRegistry.getElem?_insert] at given
      rw [Catalog.getElem?_withTable] at entered
      split at given
      · rename_i same
        rw [if_pos same] at entered
        cases entered
        cases given
        rfl
      · rename_i different
        rw [if_neg different] at entered
        exact settled.schema_eq key other found entered given
  | takenBack schema middle error heaps between after named accepted absent persists creates again =>
    cases creates.of_error
    have orderlyMiddle := orderly_of_persists persists settled.path_eq orderly
    have orderlyBetween := orderly_of_creates orderlyMiddle creates
    refine ⟨⟨settled.path_eq, (settled.keyed.insert schema).erase _, settled.heap_sound, ?_⟩,
      orderly_of_persists again settled.path_eq orderlyBetween⟩
    intro key other found entered given
    rw [Catalog.getElem?_withoutTable, Catalog.getElem?_withTable, named] at entered
    split at entered
    · cases entered
    · exact settled.schema_eq key other found entered given

theorem dropsTable {result : Except EngineError String}
    (settled : engine.Settled settings) (orderly : disk.Orderly settings.catalogPlace? plan)
    (drops : DropsTable table engine disk result next after) :
    next.Settled settings ∧ after.Orderly settings.catalogPlace? plan := by
  have fewer {heaps : HeapRegistry} {outcome : Except StorageError Unit} {middle : Disk}
      (dropped : HeapRegistry.Drops table engine.heaps disk outcome heaps middle) (key : String)
      (heap : HeapFile) (given : heaps.heaps[key]? = some heap) :
      engine.heaps.heaps[key]? = some heap := by
    rw [dropped.getElem?_eq] at given
    split at given
    · cases given
    · exact given
  cases drops with
  | missing => exact ⟨settled, orderly⟩
  | failed schema error heaps after present drops =>
    refine ⟨⟨settled.path_eq, settled.keyed, ?heap_sound, ?schema_eq⟩, orderly_of_drops orderly drops⟩
    case heap_sound => exact fun key heap given => settled.heap_sound key heap (fewer drops key heap given)
    case schema_eq =>
      exact fun key other heap entered given =>
        settled.schema_eq key other heap entered (fewer drops key heap given)
  | dropped schema heaps middle after present drops persists =>
    refine ⟨⟨settled.path_eq, settled.keyed.erase _, ?heap_sound, ?schema_eq⟩,
      orderly_of_persists persists settled.path_eq (orderly_of_drops orderly drops)⟩
    case heap_sound => exact fun key heap given => settled.heap_sound key heap (fewer drops key heap given)
    case schema_eq =>
      intro key other heap entered given
      rw [Catalog.getElem?_withoutTable] at entered
      split at entered
      · cases entered
      · exact settled.schema_eq key other heap entered (fewer drops key heap given)

/-- Whatever statement is run, the engine stays settled and its disk fit for pages. -/
theorem execute (settled : engine.Settled settings) (orderly : disk.Orderly settings.catalogPlace? plan)
    (statement : Statement) :
    ((Engine.execute statement).runOn (engine, disk)).2.1.Settled settings ∧
      ((Engine.execute statement).runOn (engine, disk)).2.2.Orderly settings.catalogPlace? plan := by
  cases statement with
  | createTable table specs =>
    exact settled.createsTable orderly (Engine.createsTable table specs engine disk)
  | dropTable table => exact settled.dropsTable orderly (Engine.dropsTable table engine disk)
  | insert table rows =>
    have sound : ∀ heap, engine.heaps.get? table = some heap → heap.Sound :=
      settled.heap_sound (Text.fold table)
    have inserts := insertsRows rows disk sound
    rw [Engine.execute]
    generalize (Engine.insert table rows).runOn (engine, disk) = outcome at inserts
    obtain ⟨result, next, after⟩ := outcome
    cases inserts with
    | unknown => exact ⟨settled, orderly⟩
    | rejected => exact ⟨settled, orderly⟩
    | worked schema heap built result grown after handled converted stores =>
      exact settled.ofCalls orderly handled stores.calls
  | select query => exact ⟨settled, orderly⟩
  | update target columns values condition =>
    have updates := updatesRows target columns values condition engine disk
    rw [Engine.execute]
    generalize (Engine.update target columns values condition).runOn (engine, disk) = outcome at updates
    obtain ⟨result, next, after⟩ := outcome
    cases updates with
    | rejected => exact ⟨settled, orderly⟩
    | worked table schema heap set found revisions result reached after named handled assigned
        selected revised ran =>
      have calls := HeapFile.calls_exchangeAll (settled.handle_sound handled).1 disk revisions
      rw [ran] at calls
      exact settled.ofCalls orderly handled calls
  | delete target condition =>
    have deletes := deletesRows target condition engine disk
    rw [Engine.execute]
    generalize (Engine.delete target condition).runOn (engine, disk) = outcome at deletes
    obtain ⟨result, next, after⟩ := outcome
    cases deletes with
    | rejected => exact ⟨settled, orderly⟩
    | worked table schema heap found result reached after named handled selected ran =>
      have calls := HeapFile.calls_deleteAll (settled.handle_sound handled).1 disk found
      rw [ran] at calls
      exact settled.ofCalls orderly handled calls
  | other kind => exact ⟨settled, orderly⟩

end Settled

/-- Every engine that is reached is settled, whatever writes were refused on the way. -/
theorem Endures.settled {session : Option Engine} (endures : Endures settings plan session disk) :
    (∀ engine, session = some engine → engine.Settled settings) ∧
      disk.Orderly settings.catalogPlace? plan := by
  induction endures with
  | start disk orderly => exact ⟨fun engine never => (by cases never), orderly⟩
  | opened session disk result after _ ran ih =>
    obtain ⟨orderlyAfter, opened⟩ := settled_of_openWith ih.2
    rw [ran] at orderlyAfter opened
    refine ⟨fun engine same => opened engine ?_, orderlyAfter⟩
    cases result with
    | error error => cases same
    | ok found =>
      cases same
      rfl
  | executed engine disk statement result next after _ ran ih =>
    have kept := (ih.1 engine rfl).execute ih.2 statement
    rw [ran] at kept
    refine ⟨fun other same => ?_, kept.2⟩
    cases same
    exact kept.1

/-- A disk that takes all writes refuses them by a plan of none. -/
theorem Reachable.endures {session : Option Engine} (reached : Reachable settings session disk) :
    Endures settings (fun _ => false) session disk := by
  induction reached with
  | start disk ready => exact .start disk (Disk.ready_iff_orderly.mp ready)
  | opened session disk result after _ ran ih => exact .opened session disk result after ih ran
  | executed engine disk statement result next after _ ran ih =>
    exact .executed engine disk statement result next after ih ran

/-- Every engine that is reached is settled, and its disk is ready. -/
theorem Reachable.settled {session : Option Engine} (reached : Reachable settings session disk) :
    (∀ engine, session = some engine → engine.Settled settings) ∧
      disk.Ready settings.catalogPlace? := by
  obtain ⟨settled, orderly⟩ := reached.endures.settled
  exact ⟨settled, Disk.ready_iff_orderly.mpr orderly⟩

end Engine

end RowStore
