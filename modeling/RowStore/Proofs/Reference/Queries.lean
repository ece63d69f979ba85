import RowStore.Proofs.Heap.Rows
import RowStore.Proofs.Reference.Store
import RowStore.Proofs.Relation.Filtering

/-!
Queries against an engine and against a store of bags. Where the tables of both have the same rows, so
do the answers of both, whatever sub-queries, joins and select lists a query is built from.
-/

namespace RowStore

namespace HeapFile

variable {heap : HeapFile} {relation : Relation} {first second : Predicate}

/-- A heap of which every row can be read, and that has the schema and the rows of a relation. -/
structure Carries (heap : HeapFile) (relation : Relation) : Prop where
  schema_eq : heap.schema = relation.schema
  readable : heap.Readable
  rows_perm : (heap.rows.map Prod.snd).Perm relation.rows

/-- A scan finds the rows that a condition accepts as soon as every row can be tested. -/
theorem Carries.agrees_scanWhere (carries : heap.Carries relation) (same : SameTest first second) :
    Agrees (fun found _ => found = heap.rows.filter fun entry => first.accepts entry.2)
      (heap.scanWhere .storage fun row => (first.test row).mapError EngineError.eval)
      (relation.rows.mapM second.test) := by
  have tested : Agrees (fun _ _ => True)
      (heap.rows.mapM fun entry => (first.test entry.2).mapError EngineError.eval)
      ((heap.rows.map Prod.snd).mapM second.test) := by
    rw [List.mapM_map]
    have each : ∀ entry : RowId × Row, Agrees Eq
        ((first.test entry.2).mapError EngineError.eval) (second.test entry.2) := by
      intro entry
      rw [same]
      exact (Agrees.refl (fun _ => rfl) (second.test entry.2)).errorLeft EngineError.eval
    exact (Agrees.mapM each heap.rows).mono fun _ _ _ => trivial
  rw [carries.readable.scanWhere_eq]
  refine (tested.trans (Agrees.mapM_perm second.test carries.rows_perm)
    fun _ _ _ _ _ => trivial).mapLeft fun _ _ _ => ?_
  congr 1
  funext entry
  rw [Predicate.accepts]
  cases first.test entry.2 <;> rfl

/-- The rows that a scan finds are those that a filter keeps. -/
theorem Carries.agrees_keepRows (carries : heap.Carries relation) (same : SameTest first second) :
    Agrees (fun found kept => (found.map Prod.snd).Perm kept)
      (heap.scanWhere .storage fun row => (first.test row).mapError EngineError.eval)
      (keepRows second relation.rows) := by
  rw [keepRows_eq]
  refine (carries.agrees_scanWhere same).mapRight fun found _ held => ?_
  rw [held, ← same.accepts_eq]
  have kept := carries.rows_perm.filter first.accepts
  rwa [List.filter_map] at kept

end HeapFile

namespace Engine

variable {engine : Engine} {store : Store}

/-- An engine whose tables are those of a store. -/
def Shows (engine : Engine) (store : Store) : Prop :=
  ∀ table, Agrees (fun found relation => found.1 = relation.schema ∧ found.2.Carries relation)
    (engine.handle table) (store.table table)

/-- A table that is tested row by row as it is read gives what the whole table gives when it is
filtered. -/
theorem Shows.scanTable (shows : engine.Shows store) (table : String) (label : Option String)
    {condition other : Schema → Except EngineError Predicate}
    (compiled : ∀ schema, Agrees SameTest (condition schema) (other schema)) :
    Agrees SameBag (engine.scanTable table label condition) (do
      let relation ← store.resolve (.table table label)
      let predicate ← other relation.schema
      (relation.filter predicate).mapError .eval) := by
  rw [Engine.scanTable, Store.resolve, bind_assoc]
  refine (shows table).bind fun found relation held => ?_
  obtain ⟨schema, heap⟩ := found
  obtain ⟨rfl, carries⟩ := held
  have filtered : ∀ schema, Agrees SameBag
      (do
        let predicate ← condition schema
        let rows ← heap.scanWhere .storage fun row => (predicate.test row).mapError EngineError.eval
        return (⟨schema, rows.map (·.2)⟩ : Relation))
      (do
        let predicate ← other schema
        ((⟨schema, relation.rows⟩ : Relation).filter predicate).mapError EngineError.eval) := by
    intro schema
    refine (compiled schema).bind fun first second same => ?_
    rw [Relation.filter]
    refine ((carries.agrees_keepRows same).bind fun found kept perm => ?_).errorRight EngineError.eval
    exact .answered _ _ ⟨rfl, perm⟩
  cases label with
  | none => exact filtered relation.schema
  | some label => exact filtered (relation.schema.renamed label)

mutual

theorem Shows.run (shows : engine.Shows store) (query : Select) :
    Agrees SameBag (engine.run query) (store.answer query) := by
  obtain ⟨items, source, condition⟩ := query
  have selected : ∀ relation other, SameBag relation other → Agrees SameBag
      (if isStar items then pure relation else relation.project items)
      (if isStar items then pure other else other.project items) := by
    intro relation other same
    split
    · exact .answered _ _ same
    · exact same.project items
  have finished : ∀ relation other, SameBag relation other → Agrees SameBag
      (do
        let predicate ← engine.compileWhere relation.schema condition
        let relation ← (relation.filter predicate).mapError EngineError.eval
        if isStar items then pure relation else relation.project items)
      (do
        let predicate ← store.compileWhere other.schema condition
        let relation ← (other.filter predicate).mapError EngineError.eval
        if isStar items then pure relation else relation.project items) := by
    intro relation other same
    rw [← same.schema_eq]
    refine (shows.compileWhere relation.schema condition).bind fun first second tested => ?_
    exact (((same.filter tested).errorLeft _).errorRight _).bind selected
  cases source with
  | table table label =>
    have scanned := (shows.scanTable table label fun schema =>
      shows.compileWhere schema condition).bind selected
    rw [Engine.run, Store.answer]
    simp only [bind_assoc] at scanned
    exact scanned
  | select query label =>
    rw [Engine.run, Store.answer]
    · exact (shows.resolve (.select query label)).bind finished
    · intro table label never
      cases never
  | join kind left right on =>
    rw [Engine.run, Store.answer]
    · exact (shows.resolve (.join kind left right on)).bind finished
    · intro table label never
      cases never
termination_by sizeOf query

theorem Shows.compileWhere (shows : engine.Shows store) (schema : Schema) (condition : Option Expr) :
    Agrees SameTest (engine.compileWhere schema condition) (store.compileWhere schema condition) := by
  cases condition with
  | none =>
    rw [Engine.compileWhere, Store.compileWhere]
    exact .answered _ _ (.refl _)
  | some condition =>
    rw [Engine.compileWhere, Store.compileWhere]
    refine agrees_compile schema condition _ _ fun query member => ?_
    refine (shows.run query).bind fun relation other same => ?_
    exact .answered _ _ same.rows_perm
termination_by sizeOf condition
decreasing_by
  have := Expr.sizeOf_lt_of_mem_subqueries member
  rw [Option.some.sizeOf_spec]
  omega

theorem Shows.resolve (shows : engine.Shows store) (source : Source) :
    Agrees SameBag (engine.resolve source) (store.resolve source) := by
  cases source with
  | table table label =>
    have always : ∀ schema : Schema, Agrees SameTest
        ((fun _ => .ok .always : Schema → Except EngineError Predicate) schema)
        ((fun _ => .ok .always : Schema → Except EngineError Predicate) schema) :=
      fun _ => .answered _ _ (.refl _)
    have scanned := shows.scanTable table label always
    rw [Engine.resolve]
    cases found : store.resolve (.table table label) with
    | error error =>
      rw [found] at scanned
      exact scanned
    | ok relation =>
      rw [found] at scanned
      have same : Agrees SameBag (engine.scanTable table label fun _ => .ok .always)
          ((relation.filter .always).mapError EngineError.eval) := scanned
      rwa [Relation.filter_always] at same
  | select query label =>
    rw [Engine.resolve, Store.resolve]
    refine (shows.run query).bind fun relation other same => ?_
    exact .answered _ _ (same.labelled label)
  | join kind left right on =>
    rw [Engine.resolve, Store.resolve]
    split
    · exact .failed _ _
    · refine (shows.resolve left).bind fun leftRows leftOthers sameLeft => ?_
      refine (shows.resolve right).bind fun rightRows rightOthers sameRight => ?_
      rw [sameLeft.joinSchema_eq sameRight]
      refine (shows.compileWhere _ on).bind fun first second tested => ?_
      exact ((sameLeft.join sameRight tested kind).errorLeft _).errorRight _
termination_by sizeOf source

end

end Engine

end RowStore
