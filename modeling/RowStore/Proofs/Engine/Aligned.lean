import RowStore.Proofs.Engine.Listing
import RowStore.Proofs.Relation.Aligned

/-!
The answers of queries follow their schemas. Each heap of an engine has the schema that the catalog has
for its table, and whatever bytes lie in it, the rows that are read follow that schema.
-/

namespace RowStore

open Outcome (Avoids)

/-- The rows that a scan finds follow the schema of the heap. -/
theorem HeapFile.avoids_scanWhere (heap : HeapFile) {predicate : Predicate}
    (regards : predicate.Regards heap.schema.columns.length) :
    Avoids EngineError.IsOutside (fun found => ∀ entry ∈ found, heap.schema.Admits entry.2)
      (heap.scanWhere .storage fun row => (predicate.test row).mapError EngineError.eval) := by
  have each : ∀ entry : RowId × List UInt8,
      Avoids EngineError.IsOutside (fun tested => heap.schema.Admits tested.1.2)
        (do
          let row ← (heap.decode entry.2).mapError EngineError.storage
          return ((entry.1, row), ← (predicate.test row).mapError EngineError.eval)) := by
    intro entry
    cases decoded : heap.decode entry.2 with
    | error error => exact not_false
    | ok row =>
      have admits := admits_of_decode decoded
      have tested := regards row admits.length_eq.ge
      exact (avoids_eval tested).bind fun _ _ => admits
  refine (Avoids.mapM fun entry (_ : entry ∈ heap.entries) => each entry).bind fun rows admitted => ?_
  intro entry member
  obtain ⟨tested, among, rfl⟩ := List.mem_map.mp member
  exact admitted tested (List.mem_of_mem_filter among)

namespace Engine

variable {engine : Engine}

/-- An engine whose heaps have the schemas that the catalog has for their tables. -/
def Typed (engine : Engine) : Prop :=
  ∀ table schema heap, engine.handle table = .ok (schema, heap) → heap.schema = schema

/-- Where the registries agree at first, a heap and a catalog entry under one name have one schema,
whatever statements were run since. -/
theorem typed_reach (agrees : ∀ key, engine.AgreesOn key) (attempts : List Attempt) :
    (engine.reach attempts).Typed := by
  intro table schema heap handled
  obtain ⟨known, present⟩ := (handle_eq_ok_iff _ _ _ _).mp handled
  have entered : ((engine.reach attempts).registered (Text.fold table)).1 = some schema := known
  have held : ((engine.reach attempts).registered (Text.fold table)).2 = some heap.schema :=
    congrArg (Option.map HeapFile.schema) present
  by_cases strands : engine.StrandsOnce (Text.fold table) attempts
  · have absent := (stranded_of_strandsOnce strands).2
    rw [held] at absent
    cases absent
  · have agrees : _ = _ := agrees_of_not_strandsOnce (agrees _) strands
    rw [entered, held] at agrees
    exact (Option.some.inj agrees).symm

theorem Opened.typed (opened : Opened engine) (attempts : List Attempt) :
    (engine.reach attempts).Typed := typed_reach opened.agrees attempts

theorem avoids_handle (engine : Engine) (table : String) :
    Avoids EngineError.IsOutside (fun found => engine.handle table = .ok found)
      (engine.handle table) := by
  cases handled : engine.handle table with
  | ok found => exact rfl
  | error error =>
    rw [handle] at handled
    cases known : engine.catalog.get? table with
    | none =>
      rw [known] at handled
      cases handled
      exact not_false
    | some schema =>
      cases present : engine.heaps.get? table with
      | none =>
        simp only [known, present] at handled
        cases handled
        exact not_false
      | some heap => simp [known, present] at handled

theorem Typed.scanTable (typed : engine.Typed) (table : String) (label : Option String)
    {condition : Schema → Except EngineError Predicate}
    (compiled : ∀ schema, Avoids EngineError.IsOutside (·.Regards schema.columns.length)
      (condition schema)) :
    Avoids EngineError.IsOutside Relation.Aligned (engine.scanTable table label condition) := by
  refine (engine.avoids_handle table).bind fun found handled => ?_
  obtain ⟨_, heap⟩ := found
  obtain rfl := typed table _ heap handled
  have scanned : ∀ schema : Schema, schema.columns = heap.schema.columns →
      Avoids EngineError.IsOutside Relation.Aligned (do
        let predicate ← condition schema
        let rows ← heap.scanWhere .storage fun row => (predicate.test row).mapError EngineError.eval
        return (⟨schema, rows.map (·.2)⟩ : Relation)) := by
    intro schema same
    refine (compiled schema).bind fun predicate regards => ?_
    rw [same] at regards
    refine (heap.avoids_scanWhere regards).bind fun found admitted row member => ?_
    obtain ⟨entry, among, rfl⟩ := List.mem_map.mp member
    have admits := admitted entry among
    rwa [Schema.Admits, ← same] at admits
  cases label with
  | none => exact scanned _ rfl
  | some label => exact scanned _ rfl

mutual

theorem Typed.run (typed : engine.Typed) (query : Select) :
    Avoids EngineError.IsOutside Relation.Aligned (engine.run query) := by
  obtain ⟨items, source, condition⟩ := query
  have selected : ∀ relation : Relation, relation.Aligned →
      Avoids EngineError.IsOutside Relation.Aligned
        (if isStar items then pure relation else relation.project items) := by
    intro relation aligned
    split
    · exact aligned
    · exact aligned.project items
  have finished : ∀ relation : Relation, relation.Aligned →
      Avoids EngineError.IsOutside Relation.Aligned (do
        let predicate ← engine.compileWhere relation.schema condition
        let relation ← (relation.filter predicate).mapError EngineError.eval
        if isStar items then pure relation else relation.project items) := by
    intro relation aligned
    refine (typed.compileWhere relation.schema condition).bind fun predicate regards => ?_
    exact (avoids_eval (aligned.filter regards)).bind selected
  cases source with
  | table table label =>
    rw [Engine.run]
    exact (typed.scanTable table label fun schema => typed.compileWhere schema condition).bind selected
  | select query label =>
    rw [Engine.run]
    · exact (typed.resolve (.select query label)).bind finished
    · intro table label never
      cases never
  | join kind left right on =>
    rw [Engine.run]
    · exact (typed.resolve (.join kind left right on)).bind finished
    · intro table label never
      cases never
termination_by sizeOf query

theorem Typed.compileWhere (typed : engine.Typed) (schema : Schema) (condition : Option Expr) :
    Avoids EngineError.IsOutside (·.Regards schema.columns.length)
      (engine.compileWhere schema condition) := by
  cases condition with
  | none =>
    rw [Engine.compileWhere]
    exact fun _ _ => trivial
  | some condition =>
    rw [Engine.compileWhere]
    refine (avoids_compile schema ?_).of_ok fun predicate compiled => regards_of_compile compiled
    rintro _ ⟨⟩ query member
    exact (typed.run query).bind fun _ _ => trivial
termination_by sizeOf condition
decreasing_by
  have := Expr.sizeOf_lt_of_mem_subqueries member
  rw [Option.some.sizeOf_spec]
  omega

theorem Typed.resolve (typed : engine.Typed) (source : Source) :
    Avoids EngineError.IsOutside Relation.Aligned (engine.resolve source) := by
  cases source with
  | table table label =>
    rw [Engine.resolve]
    exact typed.scanTable table label fun _ _ _ => trivial
  | select query label =>
    rw [Engine.resolve]
    exact (typed.run query).bind fun relation aligned => aligned.labelled label
  | join kind left right on =>
    rw [Engine.resolve]
    split
    · exact not_false
    · refine (typed.resolve left).bind fun leftRows aligned => ?_
      refine (typed.resolve right).bind fun rightRows other => ?_
      refine (typed.compileWhere _ on).bind fun predicate regards => ?_
      exact avoids_eval (aligned.join other regards kind)
termination_by sizeOf source

end

theorem Typed.candidates (typed : engine.Typed) {table : String} {schema : Schema} {heap : HeapFile}
    (handled : engine.handle table = .ok (schema, heap)) (condition : Option Expr) :
    Avoids EngineError.IsOutside (fun _ => True) (engine.candidates schema heap condition) := by
  obtain rfl := typed table schema heap handled
  refine (typed.compileWhere heap.schema condition).bind fun predicate regards => ?_
  exact (heap.avoids_scanWhere regards).mono fun _ _ => trivial

end Engine

theorem Expr.avoids_storedIn (expr : Expr) (column : Column) :
    Avoids EngineError.IsOutside (fun _ => True) (expr.storedIn column) := by
  have stored (literal : Literal) : Avoids EngineError.IsOutside (fun _ => True)
      ((literal.store column).mapError EngineError.eval) := by
    rw [Literal.store]
    cases literal.stored? column.type with
    | none => exact not_false
    | some value => exact trivial
  have read : Avoids EngineError.IsOutside (fun _ => True) expr.asLiteral := by
    cases expr <;> first | exact trivial | exact not_false
  exact read.bind fun literal _ => stored literal

theorem avoids_buildRow (schema : Schema) (exprs : List Expr) :
    Avoids EngineError.IsOutside (fun _ => True) (buildRow schema exprs) := by
  rw [buildRow]
  split
  · exact not_false
  · exact (Avoids.mapM fun pair _ => pair.1.avoids_storedIn pair.2).mono fun _ _ => trivial

/-- Assignments are to columns that are there. -/
theorem avoids_assignments (schema : Schema) (columns : List String) (values : List Expr) :
    Avoids EngineError.IsOutside (fun _ => True) (assignments schema columns values) := by
  rw [assignments]
  split
  · exact not_false
  · refine Avoids.mono (Avoids.mapM fun pair _ =>
      (?_ : Avoids EngineError.IsOutside (fun _ => True) _)) fun _ _ => trivial
    obtain ⟨name, expr⟩ := pair
    dsimp only
    cases resolved : schema.resolve name with
    | error error => exact not_false
    | ok position =>
      have inside := Schema.lt_of_resolve resolved
      simp only [Except.mapError, bind, Except.bind, List.getElem?_eq_getElem inside]
      exact (expr.avoids_storedIn _).bind fun _ _ => trivial

theorem ColumnSpec.avoids_column (spec : ColumnSpec) :
    Avoids EngineError.IsOutside (fun _ => True) spec.column := by
  rw [ColumnSpec.column.eq_def]
  split <;> first | exact trivial | exact not_false

namespace Engine

variable {engine : Engine}

/-- A step that goes on with an answer fails as the step does, or as what follows it. -/
theorem avoids_runOn_bind {State Answer Next : Type} {step : Step State EngineError Answer}
    {use : Answer → Step State EngineError Next} {state : State}
    (first : Avoids EngineError.IsOutside (fun _ => True) (step.runOn state).1)
    (later : ∀ answer next, step.runOn state = (.ok answer, next) →
      Avoids EngineError.IsOutside (fun _ => True) ((use answer).runOn next).1) :
    Avoids EngineError.IsOutside (fun _ => True) ((step >>= use).runOn state).1 := by
  rw [Step.runOn_bind]
  cases ran : step.runOn state with
  | mk result next =>
    cases result with
    | error error => rwa [ran] at first
    | ok answer => exact later answer next ran

theorem avoids_onHeap {Answer : Type} (table : String)
    (step : Step (HeapFile × Disk) StorageError Answer) (state : Engine × Disk) :
    Avoids EngineError.IsOutside (fun _ => True) ((onHeap table step).runOn state).1 := by
  rw [onHeap, runOn_onHeaps]
  cases ((HeapRegistry.onHeap table step).runOn (state.1.heaps, state.2)).1 with
  | error error => exact not_false
  | ok answer => exact trivial

theorem avoids_onHeaps {Answer : Type} (step : Step (HeapRegistry × Disk) StorageError Answer)
    (state : Engine × Disk) :
    Avoids EngineError.IsOutside (fun _ => True) ((onHeaps step).runOn state).1 := by
  rw [runOn_onHeaps]
  cases (step.runOn (state.1.heaps, state.2)).1 with
  | error error => exact not_false
  | ok answer => exact trivial

theorem avoids_onCatalog {Answer : Type} (step : Step (Catalog × Disk) CatalogError Answer)
    (state : Engine × Disk) :
    Avoids EngineError.IsOutside (fun _ => True) ((onCatalog step).runOn state).1 := by
  rw [runOn_onCatalog]
  cases (step.runOn (state.1.catalog, state.2)).1 with
  | error error => exact not_false
  | ok answer => exact trivial

theorem avoids_createTable (table : String) (specs : List ColumnSpec) (state : Engine × Disk) :
    Avoids EngineError.IsOutside (fun _ => True) ((createTable table specs).runOn state).1 := by
  rw [createTable]
  refine avoids_runOn_bind trivial ?_
  rintro _ _ ⟨⟩
  dsimp only
  split
  · exact not_false
  · refine avoids_runOn_bind ?columns ?_
    case columns =>
      exact (Avoids.mapM fun spec (_ : spec ∈ specs) => spec.avoids_column).mono fun _ _ => trivial
    intro columns next _
    refine avoids_runOn_bind (avoids_onCatalog _ next) fun _ entered _ => ?_
    refine avoids_runOn_bind trivial ?_
    rintro _ _ ⟨⟩
    have made := avoids_onHeaps (HeapRegistry.create ⟨table, columns⟩) entered
    cases ran : (onHeaps (HeapRegistry.create ⟨table, columns⟩)).runOn entered with
    | mk result after =>
      rw [ran] at made
      cases result with
      | error error => exact made
      | ok heap => exact trivial

theorem avoids_dropTable (table : String) (state : Engine × Disk) :
    Avoids EngineError.IsOutside (fun _ => True) ((dropTable table).runOn state).1 := by
  rw [dropTable]
  refine avoids_runOn_bind trivial ?_
  rintro _ _ ⟨⟩
  dsimp only
  split
  · exact not_false
  · refine avoids_runOn_bind (avoids_onHeaps _ state) fun _ dropped _ => ?_
    exact avoids_runOn_bind (avoids_onCatalog _ dropped) fun _ _ _ => trivial

theorem avoids_targetTable (target : Source) :
    Avoids EngineError.IsOutside (fun _ => True) target.targetTable := by
  rw [Source.targetTable.eq_def]
  split <;> first | exact trivial | exact not_false

theorem avoids_insert (table : String) (rows : List (List Expr)) (state : Engine × Disk) :
    Avoids EngineError.IsOutside (fun _ => True) ((insert table rows).runOn state).1 := by
  rw [insert]
  refine avoids_runOn_bind trivial ?_
  rintro _ _ ⟨⟩
  refine avoids_runOn_bind ((state.1.avoids_handle table).mono fun _ _ => trivial) ?_
  intro found next _
  have built := Avoids.mapM fun exprs (_ : exprs ∈ rows) => avoids_buildRow found.1 exprs
  refine avoids_runOn_bind (built.mono fun _ _ => trivial) fun rows next _ => ?_
  exact avoids_runOn_bind (avoids_onHeap _ _ next) fun _ _ _ => trivial

theorem Typed.delete (typed : engine.Typed) (target : Source) (condition : Option Expr)
    (disk : Disk) :
    Avoids EngineError.IsOutside (fun _ => True)
      ((delete target condition).runOn (engine, disk)).1 := by
  rw [Engine.delete]
  refine avoids_runOn_bind trivial ?_
  rintro _ _ ⟨⟩
  refine avoids_runOn_bind (avoids_targetTable target) fun table next _ => ?_
  refine avoids_runOn_bind ((engine.avoids_handle table).mono fun _ _ => trivial) ?_
  intro found next handled
  refine avoids_runOn_bind (typed.candidates (congrArg Prod.fst handled) condition) ?_
  intro found next _
  exact avoids_runOn_bind (avoids_onHeap _ _ next) fun _ _ _ => trivial

theorem Typed.update (typed : engine.Typed) (target : Source) (columns : List String)
    (values : List Expr) (condition : Option Expr) (disk : Disk) :
    Avoids EngineError.IsOutside (fun _ => True)
      ((update target columns values condition).runOn (engine, disk)).1 := by
  rw [Engine.update]
  refine avoids_runOn_bind trivial ?_
  rintro _ _ ⟨⟩
  refine avoids_runOn_bind (avoids_targetTable target) fun table next _ => ?_
  refine avoids_runOn_bind ((engine.avoids_handle table).mono fun _ _ => trivial) ?_
  intro handle next handled
  refine avoids_runOn_bind (avoids_assignments handle.1 columns values) fun set next _ => ?_
  refine avoids_runOn_bind (typed.candidates (congrArg Prod.fst handled) condition) ?_
  intro found next _
  have revised : ∀ entry ∈ found, Avoids EngineError.IsOutside (fun _ => True)
      (revise handle.2 set entry.1 entry.2) := by
    intro entry _
    rw [revise]
    cases handle.2.checkInsertable (assign entry.2 set) with
    | error error => exact not_false
    | ok _ => exact trivial
  refine avoids_runOn_bind ((Avoids.mapM revised).mono fun _ _ => trivial) fun _ next _ => ?_
  exact avoids_runOn_bind (avoids_onHeap _ _ next) fun _ _ _ => trivial

/-- No statement fails for want of a column in a row. -/
theorem Typed.execute (typed : engine.Typed) (statement : Statement) (disk : Disk) :
    Avoids EngineError.IsOutside (fun _ => True) ((execute statement).runOn (engine, disk)).1 := by
  cases statement with
  | createTable table specs => exact avoids_createTable table specs (engine, disk)
  | dropTable table => exact avoids_dropTable table (engine, disk)
  | insert table rows => exact avoids_insert table rows (engine, disk)
  | select query => exact (typed.run query).bind fun _ _ => trivial
  | update target columns values condition =>
    exact typed.update target columns values condition disk
  | delete target condition => exact typed.delete target condition disk
  | other kind => exact not_false

/-- A query with a select list takes the listed columns of what the query finds with a star. -/
theorem run_eq_project (engine : Engine) {items : List SelectItem} (listed : isStar items = false)
    (source : Source) (condition : Option Expr) :
    engine.run ⟨items, source, condition⟩ =
      engine.run ⟨[.all], source, condition⟩ >>= (·.project items) := by
  have starred : isStar [.all] = true := rfl
  cases source with
  | table table label => simp [Engine.run, listed, starred]
  | select query label => simp [Engine.run, listed, starred]
  | join kind left right on => simp [Engine.run, listed, starred]

/-- Every value of an aligned row has a cell of its own, and no cell is filled up. -/
theorem cells_eq_map_render {schema : Schema} {row : Row} (admits : schema.Admits row) :
    Report.cells schema.columns.length row = row.map Value.render := by
  rw [Report.cells, ← admits.length_eq]
  refine List.ext_getElem (by simp) fun column inside _ => ?_
  have there : column < row.length := by simpa using inside
  simp [List.getElem?_eq_getElem there]

/-- The answer of every query on every engine that is reached is well formed: each row has one value for
each column, and the value fits the column. So every listed column is found in the row it is taken
from, no cell of a result table is filled up, and no condition of a query or a statement looks
beyond the end of a row. -/
theorem run_aligned (opened : Opened engine) (attempts : List Attempt) :
    (∀ query relation, (engine.reach attempts).run query = .ok relation →
      relation.Aligned ∧ ∀ row ∈ relation.rows,
        Report.cells relation.schema.columns.length row = row.map Value.render) ∧
    (∀ items source condition relation, isStar items = false →
      (engine.reach attempts).run ⟨items, source, condition⟩ = .ok relation →
      ∃ whole columns, (engine.reach attempts).run ⟨[.all], source, condition⟩ = .ok whole ∧
        items.mapM (Relation.itemColumn whole.schema) = .ok columns ∧
        relation.rows.map (·.map some) = whole.rows.map fun row => columns.map (row[·]?)) ∧
    (∀ query position,
      (engine.reach attempts).run query ≠ .error (.eval (.columnOutsideRow position))) ∧
    ∀ statement disk position, ((execute statement).runOn (engine.reach attempts, disk)).1 ≠
      .error (.eval (.columnOutsideRow position)) := by
  have typed := opened.typed attempts
  have aligned (query : Select) (relation : Relation)
      (answered : (engine.reach attempts).run query = .ok relation) : relation.Aligned := by
    have avoids := typed.run query
    rwa [answered] at avoids
  refine ⟨fun query relation answered => ?formed, fun items source condition relation listed answered =>
    ?found, fun query position failed => ?query, fun statement disk position failed => ?statement⟩
  case formed =>
    have aligned := aligned query relation answered
    exact ⟨aligned, fun row member => cells_eq_map_render (aligned row member)⟩
  case found =>
    rw [run_eq_project _ listed] at answered
    obtain ⟨whole, starred, projected⟩ := Outcome.bind_eq_ok_iff.mp answered
    obtain ⟨columns, found, done⟩ := Outcome.bind_eq_ok_iff.mp projected
    cases done
    refine ⟨whole, columns, starred, found, ?_⟩
    rw [List.map_map]
    refine List.map_congr_left fun row member => ?_
    rw [Function.comp_apply, List.map_map]
    refine List.map_congr_left fun column among => ?_
    have inside := Relation.lt_of_itemColumns found column among
    have there := Nat.lt_of_lt_of_le inside ((aligned _ whole starred).wide member)
    simp [List.getElem?_eq_getElem there]
  case query =>
    have avoids := typed.run query
    rw [failed] at avoids
    exact avoids trivial
  case statement =>
    have avoids := typed.execute statement disk
    rw [failed] at avoids
    exact avoids trivial

/-- Everybody with the name of a pet, if there is one. -/
def adoptions : Select :=
  ⟨[.expr (.column (some "people") "name"), .expr (.column (some "pets") "name")],
    .join .left (.table "people" none) (.table "pets" none)
      (some (.compare .eq (.column (some "people") "id") (.column (some "pets") "owner"))), none⟩

/-- A left join gives whoever has no pet a `NULL`, which is a value of the row. -/
theorem run_aligned_leftJoin :
    let adopted : Relation := ⟨⟨"people_pets", [.ofType "people.name" .text, .ofType "pets.name" .text]⟩,
      [[.text "Ann", .null]]⟩
    Opened inMemory ∧ (inMemory.reach household).run adoptions = .ok adopted ∧ adopted.Aligned := by
  intro adopted
  obtain ⟨listsPeople, listsPets⟩ := lists_household
  have resolvedPeople : (inMemory.reach household).resolve (.table "people" none) = _ :=
    listsPeople.resolve_singleton none
  have resolvedPets : (inMemory.reach household).resolve (.table "pets" none) = _ :=
    listsPets.resolve_singleton none
  have ran : (inMemory.reach household).run adoptions = .ok adopted := by
    simp only [adoptions, run, resolve, resolvedPeople, resolvedPets, compileWhere, Relation.labelled]
    with_unfolding_all rfl
  exact ⟨.inMemory, ran, ((run_aligned .inMemory household).1 adoptions adopted ran).1⟩

end Engine

end RowStore
