import RowStore.Engine.Statement
import RowStore.Proofs.Catalog.Change
import RowStore.Proofs.Heap.Registry
import RowStore.Proofs.Heap.Sweeping

/-!
All that opening a database and running a statement can do. What fails before the first change leaves
engine and disk as they are; a statement about rows then works on the heap of one table.
-/

namespace RowStore.Engine

variable {engine next : Engine} {disk after : Disk} {table : String} {heap : HeapFile}
  {schema : Schema}

/-- The engine with the heap of a table exchanged. -/
def withHeap (engine : Engine) (table : String) (heap : HeapFile) : Engine :=
  { engine with heaps := engine.heaps.insert table heap }

theorem handle_eq_ok_iff (engine : Engine) (table : String) (schema : Schema) (heap : HeapFile) :
    engine.handle table = .ok (schema, heap) ↔
      engine.catalog.get? table = some schema ∧ engine.heaps.get? table = some heap := by
  rw [handle]
  cases engine.catalog.get? table with
  | none => simp
  | some found =>
    cases engine.heaps.get? table with
    | none => simp
    | some present => simp

theorem runOn_onCatalog {Answer : Type} (step : Step (Catalog × Disk) CatalogError Answer)
    (engine : Engine) (disk : Disk) :
    (onCatalog step).runOn (engine, disk) =
      ((step.runOn (engine.catalog, disk)).1.mapError EngineError.catalog,
        { engine with catalog := (step.runOn (engine.catalog, disk)).2.1 },
        (step.runOn (engine.catalog, disk)).2.2) := rfl

theorem runOn_onHeaps {Answer : Type} (step : Step (HeapRegistry × Disk) StorageError Answer)
    (engine : Engine) (disk : Disk) :
    (onHeaps step).runOn (engine, disk) =
      ((step.runOn (engine.heaps, disk)).1.mapError EngineError.storage,
        { engine with heaps := (step.runOn (engine.heaps, disk)).2.1 },
        (step.runOn (engine.heaps, disk)).2.2) := rfl

theorem runOn_onHeap {Answer : Type} (step : Step (HeapFile × Disk) StorageError Answer) (disk : Disk)
    (present : engine.heaps.get? table = some heap) :
    (onHeap table step).runOn (engine, disk) =
      ((step.runOn (heap, disk)).1.mapError EngineError.storage,
        engine.withHeap table (step.runOn (heap, disk)).2.1, (step.runOn (heap, disk)).2.2) := by
  rw [onHeap, runOn_onHeaps, HeapRegistry.runOn_onHeap step present, withHeap]

/-- What opening a database does. -/
inductive OpensWith (settings : Settings) (disk : Disk) : Except EngineError Engine → Disk → Prop where
  | unread (error : CatalogError)
      (failed : Catalog.openAt disk settings.catalogPath? = .error error) :
      OpensWith settings disk (.error (.catalog error)) disk
  | read (catalog : Catalog) (result : Except StorageError Nat) (heaps : HeapRegistry) (after : Disk)
      (found : Catalog.openAt disk settings.catalogPath? = .ok catalog)
      (ran : (HeapRegistry.restore catalog.schemas).runOn
        (.empty settings.dataDirectory settings.dataFileExtension, disk) = (result, heaps, after)) :
      OpensWith settings disk ((result.map fun _ => ⟨settings, catalog, heaps⟩).mapError .storage) after

theorem opensWith (settings : Settings) (disk : Disk) :
    OpensWith settings disk ((openWith settings).runOn disk).1 ((openWith settings).runOn disk).2 := by
  rw [openWith]
  simp only [Step.runOn_bind, Step.runOn_get, Step.runOn_ofExcept, Step.runOn_set]
  cases found : Catalog.openAt disk settings.catalogPath? with
  | error error => exact .unread error found
  | ok catalog =>
    simp only [Except.mapError]
    cases ran : (HeapRegistry.restore catalog.schemas).runOn
      (.empty settings.dataDirectory settings.dataFileExtension, disk) with
    | mk result state =>
      have read := OpensWith.read catalog result state.1 state.2 found ran
      cases result <;> exact read

/-- A database that is opened has the catalog of its file and the heaps of all tables in it. -/
theorem openWith_eq_ok {settings : Settings}
    (opened : (openWith settings).runOn disk = (.ok engine, after)) :
    ∃ catalog count heaps, Catalog.openAt disk settings.catalogPath? = .ok catalog ∧
      (HeapRegistry.restore catalog.schemas).runOn
        (.empty settings.dataDirectory settings.dataFileExtension, disk) = (.ok count, heaps, after) ∧
      engine = ⟨settings, catalog, heaps⟩ := by
  have opens := opensWith settings disk
  rw [opened] at opens
  generalize same : (Except.ok engine : Except EngineError Engine) = outcome at opens
  cases opens with
  | unread => cases same
  | read catalog result heaps _ found ran =>
    cases result with
    | error => cases same
    | ok count => exact ⟨catalog, count, heaps, found, ran, Except.ok.inj same⟩

/-- What creating a table does. -/
inductive CreatesTable (table : String) (specs : List ColumnSpec) (engine : Engine) (disk : Disk) :
    Except EngineError String → Engine → Disk → Prop where
  | rejected (error : EngineError)
      (unfit : engine.catalog.contains table = true ∨ ∀ columns,
        specs.mapM ColumnSpec.column = .ok columns → (⟨table, columns⟩ : Schema).check ≠ .ok ()) :
      CreatesTable table specs engine disk (.error error) engine disk
  | created (schema : Schema) (middle : Disk) (heap : HeapFile) (heaps : HeapRegistry) (after : Disk)
      (named : schema.table = table) (built : specs.mapM ColumnSpec.column = .ok schema.columns)
      (accepted : schema.check = .ok ())
      (absent : engine.catalog.contains table = false)
      (persists : Catalog.Persists (engine.catalog.withTable schema) disk middle)
      (creates : HeapRegistry.Creates schema engine.heaps middle (.ok heap) heaps after) :
      CreatesTable table specs engine disk (.ok s!"Table '{table}' created.")
        { engine with catalog := engine.catalog.withTable schema, heaps } after
  | takenBack (schema : Schema) (middle : Disk) (error : StorageError) (heaps : HeapRegistry)
      (between after : Disk) (named : schema.table = table) (accepted : schema.check = .ok ())
      (absent : engine.catalog.contains table = false)
      (persists : Catalog.Persists (engine.catalog.withTable schema) disk middle)
      (creates : HeapRegistry.Creates schema engine.heaps middle (.error error) heaps between)
      (persistsAgain : Catalog.Persists ((engine.catalog.withTable schema).withoutTable table)
        between after) :
      CreatesTable table specs engine disk (.error (.storage error))
        { engine with
          catalog := (engine.catalog.withTable schema).withoutTable table, heaps } after

theorem createsTable (table : String) (specs : List ColumnSpec) (engine : Engine) (disk : Disk) :
    CreatesTable table specs engine disk ((createTable table specs).runOn (engine, disk)).1
      ((createTable table specs).runOn (engine, disk)).2.1
      ((createTable table specs).runOn (engine, disk)).2.2 := by
  rw [createTable]
  simp only [Step.runOn_bind, Step.runOn_get]
  cases absent : engine.catalog.contains table with
  | true => exact .rejected _ (.inl absent)
  | false =>
    simp only [Bool.false_eq_true, if_false, Step.runOn_bind, Step.runOn_ofExcept]
    cases built : specs.mapM ColumnSpec.column with
    | error error =>
      refine .rejected error (.inr fun columns found => ?_)
      cases built.symm.trans found
    | ok columns =>
      have creates := Catalog.creates ⟨table, columns⟩ engine.catalog disk
      simp only [runOn_onCatalog]
      generalize (Catalog.create ⟨table, columns⟩).runOn (engine.catalog, disk) = outcome at creates
      obtain ⟨result, catalog, middle⟩ := outcome
      cases creates with
      | invalid fault rejected =>
        refine .rejected _ (.inr fun found same accepted => ?_)
        cases built.symm.trans same
        cases rejected.symm.trans accepted
      | known accepted present => exact .rejected _ (.inl present)
      | created _ accepted _ persists =>
        have made := HeapRegistry.creates ⟨table, columns⟩ engine.heaps middle
        simp only [Except.mapError, Step.runOn_get, runOn_onHeaps]
        generalize (HeapRegistry.create ⟨table, columns⟩).runOn (engine.heaps, middle) = outcome at made
        obtain ⟨result, heaps, between⟩ := outcome
        cases result with
        | ok heap => exact .created _ middle heap heaps between rfl built accepted absent persists made
        | error error =>
          have drops := Catalog.drops table (engine.catalog.withTable ⟨table, columns⟩) between
          simp only [Step.runOn_bind, Step.runOn_set, Step.runOn_throw, runOn_onCatalog]
          change CreatesTable table specs engine disk _
            { engine with
              catalog := ((Catalog.drop table).runOn
                (engine.catalog.withTable ⟨table, columns⟩, between)).2.1, heaps }
            ((Catalog.drop table).runOn (engine.catalog.withTable ⟨table, columns⟩, between)).2.2
          generalize (Catalog.drop table).runOn (engine.catalog.withTable ⟨table, columns⟩, between) =
            outcome at drops ⊢
          obtain ⟨result, catalog, after⟩ := outcome
          cases drops with
          | missing none =>
            rw [Catalog.get?, Catalog.getElem?_withTable, if_pos rfl] at none
            cases none
          | dropped schema _ present persistsAgain =>
            exact .takenBack _ middle error heaps between after rfl accepted absent persists made
              persistsAgain

/-- What dropping a table does. -/
inductive DropsTable (table : String) (engine : Engine) (disk : Disk) :
    Except EngineError String → Engine → Disk → Prop where
  | missing (absent : engine.catalog.get? table = none) :
      DropsTable table engine disk (.error (.catalog (.tableMissing table))) engine disk
  | failed (schema : Schema) (error : StorageError) (heaps : HeapRegistry) (after : Disk)
      (present : engine.catalog.get? table = some schema)
      (drops : HeapRegistry.Drops table engine.heaps disk (.error error) heaps after) :
      DropsTable table engine disk (.error (.storage error)) { engine with heaps } after
  | dropped (schema : Schema) (heaps : HeapRegistry) (middle after : Disk)
      (present : engine.catalog.get? table = some schema)
      (drops : HeapRegistry.Drops table engine.heaps disk (.ok ()) heaps middle)
      (persists : Catalog.Persists (engine.catalog.withoutTable table) middle after) :
      DropsTable table engine disk (.ok s!"Table '{table}' dropped.")
        { engine with catalog := engine.catalog.withoutTable table, heaps } after

theorem dropsTable (table : String) (engine : Engine) (disk : Disk) :
    DropsTable table engine disk ((dropTable table).runOn (engine, disk)).1
      ((dropTable table).runOn (engine, disk)).2.1 ((dropTable table).runOn (engine, disk)).2.2 := by
  rw [dropTable]
  simp only [Step.runOn_bind, Step.runOn_get, Catalog.contains_eq_isSome]
  cases present : engine.catalog.get? table with
  | none => exact .missing present
  | some schema =>
    have drops := HeapRegistry.drops table engine.heaps disk
    simp only [Option.isSome_some, Bool.not_true, Bool.false_eq_true, if_false, Step.runOn_bind,
      runOn_onHeaps]
    generalize (HeapRegistry.drop table).runOn (engine.heaps, disk) = outcome at drops
    obtain ⟨result, heaps, middle⟩ := outcome
    cases result with
    | error error => exact .failed schema error heaps middle present drops
    | ok _ =>
      have left := Catalog.drops table engine.catalog middle
      simp only [Except.mapError, runOn_onCatalog]
      generalize (Catalog.drop table).runOn (engine.catalog, middle) = outcome at left
      obtain ⟨result, catalog, after⟩ := outcome
      cases left with
      | missing absent =>
        rw [present] at absent
        cases absent
      | dropped found _ _ persists => exact .dropped schema heaps middle after present drops persists

/-- What inserting rows does. -/
inductive InsertsRows (table : String) (rows : List (List Expr)) (engine : Engine) (disk : Disk) :
    Except EngineError String → Engine → Disk → Prop where
  | unknown (error : EngineError) (failed : engine.handle table = .error error) :
      InsertsRows table rows engine disk (.error error) engine disk
  | rejected (schema : Schema) (heap : HeapFile) (error : EngineError)
      (handled : engine.handle table = .ok (schema, heap))
      (failed : rows.mapM (buildRow schema) = .error error) :
      InsertsRows table rows engine disk (.error error) engine disk
  | worked (schema : Schema) (heap : HeapFile) (built : List Row) (result : Except StorageError Unit)
      (next : HeapFile) (after : Disk) (handled : engine.handle table = .ok (schema, heap))
      (converted : rows.mapM (buildRow schema) = .ok built)
      (stores : HeapFile.Stores heap disk built result next after) :
      InsertsRows table rows engine disk
        ((result.map fun _ => Report.countMessage "Inserted" built.length).mapError .storage)
        (engine.withHeap table next) after

theorem insertsRows (rows : List (List Expr)) (disk : Disk)
    (sound : ∀ heap, engine.heaps.get? table = some heap → heap.Sound) :
    InsertsRows table rows engine disk ((insert table rows).runOn (engine, disk)).1
      ((insert table rows).runOn (engine, disk)).2.1
      ((insert table rows).runOn (engine, disk)).2.2 := by
  rw [insert]
  simp only [Step.runOn_bind, Step.runOn_get, Step.runOn_ofExcept]
  cases handled : engine.handle table with
  | error error => exact .unknown error handled
  | ok found =>
    obtain ⟨schema, heap⟩ := found
    simp only
    cases converted : rows.mapM (buildRow schema) with
    | error error => exact .rejected schema heap error handled converted
    | ok built =>
      have present := ((handle_eq_ok_iff _ _ _ _).mp handled).2
      have stores := (sound heap present).stores disk built
      simp only [runOn_onHeap _ disk present]
      generalize (built.forM fun row => discard (HeapFile.insert row)).runOn (heap, disk) =
        outcome at stores
      obtain ⟨result, next, after⟩ := outcome
      have worked := InsertsRows.worked schema heap built result next after handled converted stores
      cases result <;> exact worked

/-- What a deletion is about: the table, its heap and the rows to be deleted. -/
def deletion (engine : Engine) (target : Source) (condition : Option Expr) :
    Except EngineError (String × HeapFile × List (RowId × Row)) := do
  let table ← target.targetTable
  let (schema, heap) ← engine.handle table
  return (table, heap, ← engine.candidates schema heap condition)

/-- What an update is about: the table, its heap, and the rows that take the places of others. -/
def revision (engine : Engine) (target : Source) (columns : List String) (values : List Expr)
    (condition : Option Expr) : Except EngineError (String × HeapFile × List (RowId × Row)) := do
  let table ← target.targetTable
  let (schema, heap) ← engine.handle table
  let set ← assignments schema columns values
  let found ← engine.candidates schema heap condition
  return (table, heap, ← found.mapM fun (id, row) => revise heap set id row)

theorem deletion_eq_ok {target : Source} {condition : Option Expr} {found : List (RowId × Row)}
    (selected : engine.deletion target condition = .ok (table, heap, found)) :
    ∃ schema, target.targetTable = .ok table ∧ engine.handle table = .ok (schema, heap) ∧
      engine.candidates schema heap condition = .ok found := by
  obtain ⟨_, named, selected⟩ := Outcome.bind_eq_ok_iff.mp selected
  obtain ⟨⟨schema, _⟩, handled, selected⟩ := Outcome.bind_eq_ok_iff.mp selected
  obtain ⟨found, selected, same⟩ := Outcome.bind_eq_ok_iff.mp selected
  cases same
  exact ⟨schema, named, handled, selected⟩

theorem revision_eq_ok {target : Source} {columns : List String} {values : List Expr}
    {condition : Option Expr} {revisions : List (RowId × Row)}
    (revised : engine.revision target columns values condition = .ok (table, heap, revisions)) :
    ∃ schema set found, target.targetTable = .ok table ∧ engine.handle table = .ok (schema, heap) ∧
      assignments schema columns values = .ok set ∧
      engine.candidates schema heap condition = .ok found ∧
      (found.mapM fun entry => revise heap set entry.1 entry.2) = .ok revisions := by
  obtain ⟨_, named, revised⟩ := Outcome.bind_eq_ok_iff.mp revised
  obtain ⟨⟨schema, _⟩, handled, revised⟩ := Outcome.bind_eq_ok_iff.mp revised
  obtain ⟨set, assigned, revised⟩ := Outcome.bind_eq_ok_iff.mp revised
  obtain ⟨found, selected, revised⟩ := Outcome.bind_eq_ok_iff.mp revised
  obtain ⟨_, revised, same⟩ := Outcome.bind_eq_ok_iff.mp revised
  cases same
  exact ⟨schema, set, found, named, handled, assigned, selected, revised⟩

/-- Rows are revised one by one, and all of them if each new one is taken. -/
theorem mapM_revise (heap : HeapFile) (set : List (Nat × Value)) (found : List (RowId × Row)) :
    (found.mapM fun entry => revise heap set entry.1 entry.2) =
      (found.mapM fun entry => (heap.checkInsertable (assign entry.2 set)).mapError .storage).map
        fun _ => found.map fun entry => (entry.1, assign entry.2 set) :=
  Outcome.mapM_checked _ _ found

/-- What deleting the rows that meet a condition does. -/
inductive DeletesRows (target : Source) (condition : Option Expr) (engine : Engine) (disk : Disk) :
    Except EngineError String → Engine → Disk → Prop where
  | rejected (error : EngineError) (failed : engine.deletion target condition = .error error) :
      DeletesRows target condition engine disk (.error error) engine disk
  | worked (table : String) (schema : Schema) (heap : HeapFile) (found : List (RowId × Row))
      (result : Except StorageError (List Bool)) (next : HeapFile) (after : Disk)
      (named : target.targetTable = .ok table) (handled : engine.handle table = .ok (schema, heap))
      (selected : engine.candidates schema heap condition = .ok found)
      (ran : (HeapFile.deleteAll found).runOn (heap, disk) = (result, next, after)) :
      DeletesRows target condition engine disk
        ((result.map fun deleted =>
          Report.countMessage "Deleted" (deleted.count true)).mapError .storage)
        (engine.withHeap table next) after

theorem deletesRows (target : Source) (condition : Option Expr) (engine : Engine) (disk : Disk) :
    DeletesRows target condition engine disk ((delete target condition).runOn (engine, disk)).1
      ((delete target condition).runOn (engine, disk)).2.1
      ((delete target condition).runOn (engine, disk)).2.2 := by
  rw [delete]
  simp only [Step.runOn_bind, Step.runOn_get, Step.runOn_ofExcept]
  cases named : target.targetTable with
  | error error => exact .rejected error (by rw [deletion, named]; rfl)
  | ok table =>
    simp only
    cases handled : engine.handle table with
    | error error =>
      exact .rejected error (by simp [deletion, named, handled, bind, Except.bind])
    | ok found =>
      obtain ⟨schema, heap⟩ := found
      simp only
      cases selected : engine.candidates schema heap condition with
      | error error =>
        exact .rejected error (by simp [deletion, named, handled, selected, bind, Except.bind])
      | ok found =>
        have present := ((handle_eq_ok_iff _ _ _ _).mp handled).2
        simp only [runOn_onHeap _ disk present]
        cases ran : (HeapFile.deleteAll found).runOn (heap, disk) with
        | mk result state =>
          have worked := DeletesRows.worked table schema heap found result state.1 state.2 named
            handled selected ran
          rw [HeapFile.deleteAll] at ran
          rw [ran]
          cases result <;> exact worked

/-- What updating the rows that meet a condition does. -/
inductive UpdatesRows (target : Source) (columns : List String) (values : List Expr)
    (condition : Option Expr) (engine : Engine) (disk : Disk) :
    Except EngineError String → Engine → Disk → Prop where
  | rejected (error : EngineError)
      (failed : engine.revision target columns values condition = .error error) :
      UpdatesRows target columns values condition engine disk (.error error) engine disk
  | worked (table : String) (schema : Schema) (heap : HeapFile) (set : List (Nat × Value))
      (found revisions : List (RowId × Row)) (result : Except StorageError Unit) (next : HeapFile)
      (after : Disk) (named : target.targetTable = .ok table)
      (handled : engine.handle table = .ok (schema, heap))
      (assigned : assignments schema columns values = .ok set)
      (selected : engine.candidates schema heap condition = .ok found)
      (revised : (found.mapM fun (id, row) => revise heap set id row) = .ok revisions)
      (ran : (HeapFile.exchangeAll revisions).runOn (heap, disk) = (result, next, after)) :
      UpdatesRows target columns values condition engine disk
        ((result.map fun _ => Report.countMessage "Updated" revisions.length).mapError .storage)
        (engine.withHeap table next) after

theorem updatesRows (target : Source) (columns : List String) (values : List Expr)
    (condition : Option Expr) (engine : Engine) (disk : Disk) :
    UpdatesRows target columns values condition engine disk
      ((update target columns values condition).runOn (engine, disk)).1
      ((update target columns values condition).runOn (engine, disk)).2.1
      ((update target columns values condition).runOn (engine, disk)).2.2 := by
  rw [update]
  simp only [Step.runOn_bind, Step.runOn_get, Step.runOn_ofExcept]
  cases named : target.targetTable with
  | error error => exact .rejected error (by rw [revision, named]; rfl)
  | ok table =>
    simp only
    cases handled : engine.handle table with
    | error error =>
      exact .rejected error (by simp [revision, named, handled, bind, Except.bind])
    | ok found =>
      obtain ⟨schema, heap⟩ := found
      simp only
      cases assigned : assignments schema columns values with
      | error error =>
        exact .rejected error (by simp [revision, named, handled, assigned, bind, Except.bind])
      | ok set =>
        simp only
        cases selected : engine.candidates schema heap condition with
        | error error =>
          exact .rejected error
            (by simp [revision, named, handled, assigned, selected, bind, Except.bind])
        | ok found =>
          simp only
          cases revised : found.mapM fun (id, row) => revise heap set id row with
          | error error =>
            exact .rejected error
              (by simp [revision, named, handled, assigned, selected, revised, bind, Except.bind])
          | ok revisions =>
            have present := ((handle_eq_ok_iff _ _ _ _).mp handled).2
            simp only [runOn_onHeap _ disk present]
            cases ran : (HeapFile.exchangeAll revisions).runOn (heap, disk) with
            | mk result state =>
              have worked := UpdatesRows.worked table schema heap set found revisions result state.1
                state.2 named handled assigned selected revised ran
              rw [HeapFile.exchangeAll] at ran
              rw [ran]
              cases result <;> exact worked

section

variable {target : Source} {columns : List String} {values : List Expr} {condition : Option Expr}
  {error : EngineError} (disk : Disk)

/-- An update is rejected as long as it finds out what it is about. -/
theorem runOn_update_rejected
    (rejected : engine.revision target columns values condition = .error error) :
    (update target columns values condition).runOn (engine, disk) = (.error error, engine, disk) := by
  have updates := updatesRows target columns values condition engine disk
  generalize (update target columns values condition).runOn (engine, disk) = outcome at updates
  obtain ⟨result, next, after⟩ := outcome
  cases updates with
  | rejected cause failed =>
    cases rejected.symm.trans failed
    rfl
  | worked table schema heap set found revisions result kept _ named handled assigned selected each =>
    simp [revision, named, handled, assigned, selected, each, bind, Except.bind, pure, Except.pure]
      at rejected

/-- An update whose new rows were all checked exchanges them for the old ones. -/
theorem runOn_update {revisions : List (RowId × Row)}
    (revised : engine.revision target columns values condition = .ok (table, heap, revisions)) :
    (update target columns values condition).runOn (engine, disk) =
      ((((HeapFile.exchangeAll revisions).runOn (heap, disk)).1.map fun _ =>
          Report.countMessage "Updated" revisions.length).mapError .storage,
        engine.withHeap table ((HeapFile.exchangeAll revisions).runOn (heap, disk)).2.1,
        ((HeapFile.exchangeAll revisions).runOn (heap, disk)).2.2) := by
  have updates := updatesRows target columns values condition engine disk
  generalize (update target columns values condition).runOn (engine, disk) = outcome at updates
  obtain ⟨result, next, after⟩ := outcome
  cases updates with
  | rejected error failed => cases failed.symm.trans revised
  | worked other schema found set selected entries result kept _ named handled assigned chosen each ran =>
    have again : engine.revision target columns values condition = .ok (other, found, entries) := by
      simp [revision, named, handled, assigned, chosen, each, bind, Except.bind, pure, Except.pure]
    cases revised.symm.trans again
    rw [ran]
    rfl

theorem runOn_delete_rejected (rejected : engine.deletion target condition = .error error) :
    (delete target condition).runOn (engine, disk) = (.error error, engine, disk) := by
  have deletes := deletesRows target condition engine disk
  generalize (delete target condition).runOn (engine, disk) = outcome at deletes
  obtain ⟨result, next, after⟩ := outcome
  cases deletes with
  | rejected cause failed =>
    cases rejected.symm.trans failed
    rfl
  | worked table schema heap found result kept _ named handled selected =>
    simp [deletion, named, handled, selected, bind, Except.bind, pure, Except.pure] at rejected

theorem runOn_delete {found : List (RowId × Row)}
    (selected : engine.deletion target condition = .ok (table, heap, found)) :
    (delete target condition).runOn (engine, disk) =
      ((((HeapFile.deleteAll found).runOn (heap, disk)).1.map fun deleted =>
          Report.countMessage "Deleted" (deleted.count true)).mapError .storage,
        engine.withHeap table ((HeapFile.deleteAll found).runOn (heap, disk)).2.1,
        ((HeapFile.deleteAll found).runOn (heap, disk)).2.2) := by
  have deletes := deletesRows target condition engine disk
  generalize (delete target condition).runOn (engine, disk) = outcome at deletes
  obtain ⟨result, next, after⟩ := outcome
  cases deletes with
  | rejected error failed => cases failed.symm.trans selected
  | worked other schema read chosen result kept _ named handled again ran =>
    have same : engine.deletion target condition = .ok (other, read, chosen) := by
      simp [deletion, named, handled, again, bind, Except.bind, pure, Except.pure]
    cases selected.symm.trans same
    rw [ran]
    rfl

end

end RowStore.Engine
