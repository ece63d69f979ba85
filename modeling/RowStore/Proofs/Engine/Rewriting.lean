import RowStore.Proofs.Engine.Everywhere
import RowStore.Proofs.Engine.Listing
import RowStore.Proofs.Relation.Filtering

/-!
Queries written in two ways. A table that is tested row by row as it is read gives what the whole table
gives when it is filtered, and the condition of an inner join may as well stand in the `WHERE`.
-/

namespace RowStore

namespace HeapFile

/-- Testing rows as they are read keeps those that a filter keeps, and fails as the filter fails. -/
theorem Readable.map_scanWhere {heap : HeapFile} (readable : heap.Readable) (predicate : Predicate) :
    (heap.scanWhere .storage fun row => (predicate.test row).mapError EngineError.eval).map
        (·.map Prod.snd) =
      (keepRows predicate (heap.rows.map Prod.snd)).mapError .eval := by
  rw [readable.scanWhere_eq]
  induction heap.rows with
  | nil => rfl
  | cons entry rest ih =>
    rw [List.map_cons, keepRows, Outcome.mapM_cons]
    cases tested : predicate.test entry.2 with
    | error error => rfl
    | ok accepted =>
      have head : ((predicate.test entry.2).mapError EngineError.eval).toOption.getD false = accepted := by
        rw [tested]
        rfl
      rw [List.filter_cons, head]
      generalize (rest.mapM fun entry => (predicate.test entry.2).mapError EngineError.eval) = verdicts at ih ⊢
      generalize keepRows predicate (rest.map Prod.snd) = kept at ih ⊢
      cases verdicts <;> cases kept <;> cases ih
      · rfl
      · cases accepted <;> rfl

end HeapFile

namespace Engine

variable {engine : Engine}

/-- The rows of a relation that meet the condition of a query. -/
def narrow (engine : Engine) (condition : Option Expr) (relation : Relation) :
    Except EngineError Relation := do
  let predicate ← engine.compileWhere relation.schema condition
  (relation.filter predicate).mapError .eval

/-- The columns that a select list asks for. -/
def listed (items : List SelectItem) (relation : Relation) : Except EngineError Relation :=
  if isStar items then return relation else relation.project items

theorem narrow_none (engine : Engine) (relation : Relation) : engine.narrow none relation = .ok relation := by
  rw [narrow, compileWhere]
  exact congrArg (Except.mapError EngineError.eval) relation.filter_always

/-- A source that is no table is complete before its rows are tested. -/
theorem run_composed {source : Source} (composed : ∀ table label, source ≠ .table table label)
    (items : List SelectItem) (condition : Option Expr) :
    engine.run ⟨items, source, condition⟩ =
      engine.resolve source >>= engine.narrow condition >>= listed items := by
  rw [run]
  · simp only [narrow, bind_assoc]
    rfl
  · exact composed

/-- A scan tests the rows of the table as a filter does that finds them all in a relation. -/
theorem scanTable_eq {table : String} {schema : Schema} {heap : HeapFile}
    (handled : engine.handle table = .ok (schema, heap)) (readable : heap.Readable)
    (label : Option String) (condition : Schema → Except EngineError Predicate) :
    engine.scanTable table label condition = (do
      let relation := (⟨schema, heap.rows.map Prod.snd⟩ : Relation).labelled label
      let predicate ← condition relation.schema
      (relation.filter predicate).mapError .eval) := by
  have each (schema : Schema) (predicate : Predicate) :
      ((heap.scanWhere .storage fun row => (predicate.test row).mapError EngineError.eval).map
        fun found => (⟨schema, found.map Prod.snd⟩ : Relation)) =
        ((⟨schema, heap.rows.map Prod.snd⟩ : Relation).filter predicate).mapError .eval := by
    have kept := readable.map_scanWhere predicate
    rw [Relation.filter]
    generalize (heap.scanWhere EngineError.storage fun row =>
      (predicate.test row).mapError EngineError.eval) = found at kept ⊢
    generalize keepRows predicate (heap.rows.map Prod.snd) = rows at kept ⊢
    cases found <;> cases rows <;> cases kept <;> rfl
  rw [scanTable, handled]
  cases label with
  | none => exact congrArg (condition schema >>= ·) (funext (each schema))
  | some label => exact congrArg (condition (schema.renamed label) >>= ·) (funext (each _))

/-- A table is the relation of all its rows, under the name given to it. -/
theorem resolve_table {table : String} {schema : Schema} {heap : HeapFile}
    (handled : engine.handle table = .ok (schema, heap)) (readable : heap.Readable)
    (label : Option String) :
    engine.resolve (.table table label) =
      .ok ((⟨schema, heap.rows.map Prod.snd⟩ : Relation).labelled label) := by
  rw [resolve, scanTable_eq handled readable]
  change ((Relation.filter _ .always).mapError EngineError.eval) = _
  rw [Relation.filter_always]
  rfl

/-- Testing the rows of a table as they are read comes to reading the table first. -/
theorem run_table (readable : engine.Each HeapFile.Readable) (items : List SelectItem) (table : String)
    (label : Option String) (condition : Option Expr) :
    engine.run ⟨items, .table table label, condition⟩ =
      engine.resolve (.table table label) >>= engine.narrow condition >>= listed items := by
  have scanned : engine.scanTable table label (engine.compileWhere · condition) =
      engine.resolve (.table table label) >>= engine.narrow condition := by
    cases handled : engine.handle table with
    | error error =>
      rw [resolve, scanTable, scanTable, handled]
      rfl
    | ok found =>
      obtain ⟨schema, heap⟩ := found
      have held := readable.handle handled
      rw [resolve_table handled held, scanTable_eq handled held]
      rfl
  rw [run]
  simp only [scanned]
  rfl

/-- All of a table, queried under a name, is the table under that name. -/
theorem resolve_all (readable : engine.Each HeapFile.Readable) (table : String) (label : Option String) :
    engine.resolve (.select ⟨[.all], .table table none, none⟩ label) =
      engine.resolve (.table table label) := by
  conv_lhs => rw [resolve, run_table readable]
  cases handled : engine.handle table with
  | error error =>
    rw [resolve, resolve, scanTable, scanTable, handled]
    rfl
  | ok found =>
    obtain ⟨schema, heap⟩ := found
    have held := readable.handle handled
    rw [resolve_table handled held, resolve_table handled held]
    simp only [bind, Except.bind, narrow_none]
    rfl

/-- An engine without tables. -/
def Bare (engine : Engine) : Prop := ∀ key, engine.registered key = (none, none)

theorem Bare.each {holds : HeapFile → Prop} (bare : engine.Bare) : engine.Each holds := by
  intro key heap present
  have none : engine.heaps.heaps[key]?.map HeapFile.schema = none := congrArg Prod.snd (bare key)
  rw [present] at none
  cases none

/-- From an engine without tables statements lead only to engines on which it makes no difference whether
a table is tested as it is read or read first: the columns, the rows, their order and the failures are the
same. -/
theorem filtering_scan (bare : engine.Bare) (attempts : List Attempt) (items : List SelectItem)
    (table : String) (label : Option String) (condition : Option Expr) :
    (engine.reach attempts).run ⟨items, .table table label, condition⟩ =
      (engine.reach attempts).run
        ⟨items, .select ⟨[.all], .table table none, none⟩ label, condition⟩ := by
  have each := Each.reach HeapFile.lasting_readable bare.each attempts
  have readable : (engine.reach attempts).Each HeapFile.Readable :=
    fun key heap present => (each key heap present).2
  have composed : ∀ other name, Source.select ⟨[.all], .table table none, none⟩ label ≠ .table other name :=
    fun other name never => by cases never
  rw [run_table readable, run_composed composed, resolve_all readable]

theorem bare_inMemory : inMemory.Bare := by
  intro key
  simp [registered, inMemory, Catalog.inMemory, HeapRegistry.schemaAt?, HeapRegistry.empty]

/-- The owners of pets are found in a table of people, and in what is selected from it. -/
theorem filtering_scan_household : inMemory.Bare ∧
    (inMemory.reach household).run ⟨[.expr (.column (some "u") "name")], .table "people" (some "u"),
        some (.inSelect (.column none "id") ⟨[.expr (.column none "owner")], .table "pets" none, none⟩)⟩ =
      (inMemory.reach household).run ⟨[.expr (.column (some "u") "name")],
        .select ⟨[.all], .table "people" none, none⟩ (some "u"),
        some (.inSelect (.column none "id") ⟨[.expr (.column none "owner")], .table "pets" none, none⟩)⟩ :=
  ⟨bare_inMemory, filtering_scan bare_inMemory household _ _ _ _⟩

/-- A join of a kind that there is resolves its sides, and then tests their rows in pairs. -/
theorem resolve_join_of_kind {kind : JoinKind} (known : (kind == .right || kind == .full) = false)
    (left right : Source) (condition : Option Expr) :
    engine.resolve (.join kind left right condition) = (do
      let left ← engine.resolve left
      let right ← engine.resolve right
      let predicate ← engine.compileWhere (Relation.joinSchema left right) condition
      (Relation.join kind predicate left right).mapError .eval) := by
  rw [resolve, known]
  rfl

/-- An inner join gives those of all pairs that meet its condition. -/
theorem resolve_join {kind : JoinKind} (inner : kind = .inner ∨ kind = .comma) (left right : Source)
    (condition : Option Expr) :
    engine.resolve (.join kind left right condition) = (do
      let left ← engine.resolve left
      let right ← engine.resolve right
      engine.narrow condition (left.pairs right)) := by
  have apart : kind ≠ .left := by rcases inner with rfl | rfl <;> decide
  rw [resolve_join_of_kind (by rcases inner with rfl | rfl <;> rfl)]
  simp only [Relation.join_eq_filter apart]
  rfl

theorem compileWhere_and (engine : Engine) (schema : Schema) (left right : Expr) :
    engine.compileWhere schema (some (.and left right)) = (do
      let first ← engine.compileWhere schema (some left)
      let second ← engine.compileWhere schema (some right)
      return .and first second) := by
  rw [compileWhere, compileWhere, compileWhere, compile]
  rfl

/-- A conjunction narrows a relation as its sides do one after the other, except that the right side is
compiled before the left side is tested. -/
theorem agrees_narrow_and (engine : Engine) (first second : Expr) (relation : Relation) :
    Agrees Eq (engine.narrow (some first) relation >>= engine.narrow (some second))
      (engine.narrow (some (.and first second)) relation) := by
  rw [narrow, narrow, compileWhere_and, bind_assoc, bind_assoc]
  refine .onward _ fun left => ?_
  have both (right : Predicate) := Relation.agrees_filter_and left right relation
  cases filtered : relation.filter left with
  | error error =>
    -- the conjunction is not tested if its right side cannot be compiled, but fails in either case
    rw [bind_assoc]
    cases engine.compileWhere relation.schema (some second) with
    | error fault => exact .failed (EngineError.eval error) fault
    | ok right =>
      have failed := both right
      rw [filtered] at failed
      exact (failed.errorLeft EngineError.eval).errorRight EngineError.eval
  | ok narrowed =>
    change Agrees Eq (engine.narrow (some second) narrowed) _
    rw [narrow, Relation.schema_of_filter filtered, bind_assoc]
    refine .onward _ fun right => ?_
    have kept := both right
    rw [filtered] at kept
    exact (kept.errorLeft EngineError.eval).errorRight EngineError.eval

/-- The condition of an inner join and that of the query are one condition of the query: both ways
succeed alike, and then with the same columns and the same rows in the same order. -/
theorem on_is_where (engine : Engine) (items : List SelectItem) (left right : Source) (on : Expr) :
    (∀ condition,
      Agrees Eq (engine.run ⟨items, .join .inner left right (some on), some condition⟩)
        (engine.run ⟨items, .join .comma left right none, some (.and on condition)⟩)) ∧
    engine.run ⟨items, .join .inner left right (some on), none⟩ =
      engine.run ⟨items, .join .comma left right none, some on⟩ := by
  have composed (kind : JoinKind) (condition : Option Expr) (table : String) (label : Option String) :
      Source.join kind left right condition ≠ .table table label := by
    intro never
    cases never
  simp only [run_composed (composed _ _), resolve_join (.inl rfl), resolve_join (.inr rfl), bind_assoc,
    narrow_none]
  refine ⟨fun condition => ?_, rfl⟩
  refine .onward _ fun leftRows => .onward _ fun rightRows => ?_
  change Agrees Eq _ (engine.narrow (some (.and on condition)) (leftRows.pairs rightRows) >>= listed items)
  rw [← bind_assoc]
  refine (engine.agrees_narrow_and on condition _).bind fun kept later same => ?_
  rw [same]
  exact .refl (fun _ => rfl) _

end Engine

end RowStore
