import RowStore.Proofs.Engine.Outcome
import RowStore.Proofs.Heap.Keeping
import RowStore.Proofs.Reference.Store

/-!
What statements are made of. All that a statement can do about a table it does in moves of five kinds, of
which two change the catalog and write its file, and three are about the heap of the table and its file.
-/

namespace RowStore.Engine

open HeapFile (StaysInFile)

variable {table : String}

/-- What a statement about the rows of a table comes to: nothing, or calls on the heap of the table. -/
inductive Works (statement : Statement) (state : Engine × Disk) : Engine × Disk → Prop where
  | idle : Works statement state state
  | worked (table : String) (heap next : HeapFile) (after : Disk)
      (named : statement.subject? = some table) (present : state.1.heaps.get? table = some heap)
      (stays : StaysInFile (heap, state.2) (next, after)) :
      Works statement state (state.1.withHeap table next, after)

theorem works_insert (table : String) (rows : List (List Expr)) (state : Engine × Disk) :
    Works (.insert table rows) state ((insert table rows).runOn state).2 := by
  obtain ⟨engine, disk⟩ := state
  rw [insert]
  simp only [Step.runOn_bind, Step.runOn_get, Step.runOn_ofExcept]
  cases handled : engine.handle table with
  | error error => exact .idle
  | ok found =>
    obtain ⟨schema, heap⟩ := found
    simp only
    cases rows.mapM (buildRow schema) with
    | error error => exact .idle
    | ok built =>
      have present := ((handle_eq_ok_iff _ _ _ _).mp handled).2
      have stays := Step.Respects.forM (fun row => (HeapFile.respects_insert row).discard) built
        (heap, disk)
      simp only [runOn_onHeap _ disk present]
      generalize (built.forM fun row => discard (HeapFile.insert row)).runOn (heap, disk) =
        outcome at stays
      obtain ⟨result, next, after⟩ := outcome
      have worked : Works (.insert table rows) (engine, disk) (engine.withHeap table next, after) :=
        .worked table heap next after rfl present stays
      cases result <;> exact worked

theorem works_delete (target : Source) (condition : Option Expr) (state : Engine × Disk) :
    Works (.delete target condition) state ((delete target condition).runOn state).2 := by
  obtain ⟨engine, disk⟩ := state
  have deletes := deletesRows target condition engine disk
  generalize (delete target condition).runOn (engine, disk) = outcome at deletes ⊢
  obtain ⟨result, next, after⟩ := outcome
  cases deletes with
  | rejected => exact .idle
  | worked table schema heap found result next after named handled selected ran =>
    have stays := Step.Respects.mapM (fun entry : RowId × Row => HeapFile.respects_delete entry.1) found
      (heap, disk)
    rw [HeapFile.deleteAll] at ran
    rw [ran] at stays
    exact .worked table heap next after (by rw [Statement.subject?, named]; rfl)
      ((handle_eq_ok_iff _ _ _ _).mp handled).2 stays

theorem works_update (target : Source) (columns : List String) (values : List Expr)
    (condition : Option Expr) (state : Engine × Disk) :
    Works (.update target columns values condition) state
      ((update target columns values condition).runOn state).2 := by
  obtain ⟨engine, disk⟩ := state
  have updates := updatesRows target columns values condition engine disk
  generalize (update target columns values condition).runOn (engine, disk) = outcome at updates ⊢
  obtain ⟨result, next, after⟩ := outcome
  cases updates with
  | rejected => exact .idle
  | worked table schema heap set found revisions result next after named handled assigned selected
      revised ran =>
    have stays := Step.Respects.forM
      (fun entry : RowId × Row => HeapFile.respects_exchange entry.1 entry.2) revisions (heap, disk)
    rw [HeapFile.exchangeAll] at ran
    rw [ran] at stays
    exact .worked table heap next after (by rw [Statement.subject?, named]; rfl)
      ((handle_eq_ok_iff _ _ _ _).mp handled).2 stays

/-- A move of a statement about a table. -/
inductive Moves (table : String) : Engine × Disk → Engine × Disk → Prop where
  | entered (engine : Engine) (disk : Disk) (schema : Schema) (after : Disk)
      (named : schema.table = table) (accepted : schema.check = .ok ())
      (persists : Catalog.Persists (engine.catalog.withTable schema) disk after) :
      Moves table (engine, disk) ({ engine with catalog := engine.catalog.withTable schema }, after)
  | removed (engine : Engine) (disk after : Disk)
      (persists : Catalog.Persists (engine.catalog.withoutTable table) disk after) :
      Moves table (engine, disk) ({ engine with catalog := engine.catalog.withoutTable table }, after)
  | created (engine : Engine) (disk : Disk) (schema : Schema) (result : Except StorageError HeapFile)
      (heaps : HeapRegistry) (after : Disk) (named : schema.table = table)
      (creates : HeapRegistry.Creates schema engine.heaps disk result heaps after) :
      Moves table (engine, disk) ({ engine with heaps }, after)
  | dropped (engine : Engine) (disk : Disk) (result : Except StorageError Unit) (heaps : HeapRegistry)
      (after : Disk) (drops : HeapRegistry.Drops table engine.heaps disk result heaps after) :
      Moves table (engine, disk) ({ engine with heaps }, after)
  | worked (engine : Engine) (disk : Disk) (heap next : HeapFile) (after : Disk)
      (present : engine.heaps.get? table = some heap)
      (stays : StaysInFile (heap, disk) (next, after)) :
      Moves table (engine, disk) (engine.withHeap table next, after)

/-- States that moves about a table lead to. -/
abbrev MovesTo (table : String) : Engine × Disk → Engine × Disk → Prop :=
  Relation.ReflTransGen (Moves table)

theorem movesTo_createTable (table : String) (specs : List ColumnSpec) (state : Engine × Disk) :
    MovesTo table state ((createTable table specs).runOn state).2 := by
  obtain ⟨engine, disk⟩ := state
  have creates := createsTable table specs engine disk
  generalize (createTable table specs).runOn (engine, disk) = outcome at creates ⊢
  obtain ⟨result, next, after⟩ := outcome
  cases creates with
  | rejected => exact .refl
  | created schema middle heap heaps _ named built accepted absent persists creates =>
    exact .tail (.single (.entered engine disk schema middle named accepted persists))
      (.created _ middle schema _ heaps after named creates)
  | takenBack schema middle error heaps between _ named accepted absent persists creates again =>
    exact .tail (.tail (.single (.entered engine disk schema middle named accepted persists))
      (.created _ middle schema _ heaps between named creates)) (.removed _ between after again)

theorem movesTo_dropTable (table : String) (state : Engine × Disk) :
    MovesTo table state ((dropTable table).runOn state).2 := by
  obtain ⟨engine, disk⟩ := state
  have drops := dropsTable table engine disk
  generalize (dropTable table).runOn (engine, disk) = outcome at drops ⊢
  obtain ⟨result, next, after⟩ := outcome
  cases drops with
  | missing => exact .refl
  | failed schema error heaps _ present drops => exact .single (.dropped engine disk _ heaps after drops)
  | dropped schema heaps middle _ present drops persists =>
    exact .tail (.single (.dropped engine disk _ heaps middle drops)) (.removed _ middle after persists)

theorem Works.movesTo {statement : Statement} {state after : Engine × Disk}
    (works : Works statement state after) :
    after = state ∨ ∃ table, statement.subject? = some table ∧ MovesTo table state after := by
  cases works with
  | idle => exact .inl rfl
  | worked table heap next after named present stays =>
    exact .inr ⟨table, named, .single (.worked state.1 state.2 heap next after present stays)⟩

/-- A statement that changes anything is made of moves about its table. -/
theorem movesTo_execute (statement : Statement) (state : Engine × Disk) :
    ((execute statement).runOn state).2 = state ∨
      ∃ table, statement.subject? = some table ∧
        MovesTo table state ((execute statement).runOn state).2 := by
  cases statement with
  | createTable table specs => exact .inr ⟨table, rfl, movesTo_createTable table specs state⟩
  | dropTable table => exact .inr ⟨table, rfl, movesTo_dropTable table state⟩
  | insert table rows => exact (works_insert table rows state).movesTo
  | select query => exact .inl rfl
  | update target columns values condition =>
    exact (works_update target columns values condition state).movesTo
  | delete target condition => exact (works_delete target condition state).movesTo
  | other kind => exact .inl rfl

end RowStore.Engine
