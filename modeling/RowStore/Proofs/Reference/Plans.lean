import RowStore.Proofs.Engine.Assigning
import RowStore.Proofs.Engine.Insertion
import RowStore.Proofs.Reference.Queries

/-!
What a deletion and an update are about, for an engine and for a store of bags: the same rows leave, and
the same rows come.
-/

namespace RowStore

theorem assign_eq_image (row : Row) (set : List (Nat × Value)) :
    assign row set = Row.image set row := by
  apply List.ext_getElem?
  intro position
  rw [getElem?_assign, Row.image, List.getElem?_mapIdx]

/-- A heap takes a row exactly if the store does. -/
theorem agrees_checkInsertable {heap : HeapFile} {schema : Schema} (same : heap.schema = schema)
    (row : Row) :
    Agrees (fun _ _ => True) (heap.checkInsertable row) (Store.checkFits schema row) := by
  subst same
  rw [HeapFile.checkInsertable, HeapFile.encode, Store.checkFits]
  cases checked : Row.check heap.schema row with
  | error cause =>
    simp only [Row.encode, checked, bind, Except.bind, Except.mapError]
    exact .failed _ _
  | ok _ =>
    have encoded := (Row.encode_eq_ok_iff heap.schema row _).mpr ⟨checked, rfl⟩
    have length_eq := Row.length_of_encode encoded
    simp only [encoded, length_eq, bind, Except.bind, Except.mapError]
    by_cases large : maxRowSize < row.width heap.schema.columns.length
    · rw [if_pos large, if_pos large]
      exact .failed _ _
    · rw [if_neg large, if_neg large]
      exact .answered _ _ trivial

theorem Store.table_eq_ok_iff (store : Store) (name : String) (relation : Relation) :
    store.table name = .ok relation ↔ store (Text.fold name) = some relation := by
  rw [Store.table]
  cases store (Text.fold name) with
  | none => simp
  | some found => simp

/-- The rows of a heap and those of its relation that a condition accepts are the same. -/
theorem HeapFile.Carries.filter_perm {heap : HeapFile} {relation : Relation}
    (carries : heap.Carries relation) (accepts : Row → Bool) :
    ((heap.rows.filter fun entry => accepts entry.2).map Prod.snd).Perm
      (relation.rows.filter accepts) := by
  have perm := carries.rows_perm.filter accepts
  rwa [List.filter_map] at perm

namespace Engine

variable {engine : Engine} {store : Store}

/-- A store after a deletion, as an engine sees the rows that are deleted. -/
def Deleted (store : Store) (plan : String × HeapFile × List (RowId × Row)) (next : Store) : Prop :=
  ∃ (relation : Relation) (predicate : Predicate), store (Text.fold plan.1) = some relation ∧
    plan.2.1.Carries relation ∧
    plan.2.2 = plan.2.1.rows.filter (fun entry => predicate.accepts entry.2) ∧
    next = store.enter plan.1 (some { relation with
      rows := relation.rows.filter fun row => !predicate.accepts row })

theorem Shows.deletion (shows : engine.Shows store) (target : Source) (condition : Option Expr) :
    Agrees (Deleted store) (engine.deletion target condition) (store.delete target condition) := by
  rw [Engine.deletion, Store.delete]
  refine (Agrees.refl (fun _ => rfl) target.targetTable).bind fun table _ same => ?_
  subst same
  refine (shows table).known.bind fun found relation held => ?_
  obtain ⟨schema, heap⟩ := found
  obtain ⟨_, shown, rfl, carries⟩ := held
  have entered := (Store.table_eq_ok_iff _ _ _).mp shown
  simp only [Engine.candidates, bind_assoc]
  refine (shows.compileWhere relation.schema condition).bind fun first second tested => ?_
  refine ((carries.agrees_scanWhere tested).errorRight EngineError.eval).bind fun found _ selected => ?_
  refine .answered _ _ ⟨relation, first, entered, carries, selected, ?_⟩
  rw [tested.accepts_eq]

/-- A store after an update, as an engine sees the rows that take the places of others. -/
def Updated (store : Store) (plan : String × HeapFile × List (RowId × Row)) (next : Store) : Prop :=
  ∃ (relation : Relation) (predicate : Predicate) (set : List (Nat × Value)),
    store (Text.fold plan.1) = some relation ∧ plan.2.1.Carries relation ∧
    plan.2.2 = (plan.2.1.rows.filter fun entry => predicate.accepts entry.2).map
      (fun entry => (entry.1, Row.image set entry.2)) ∧
    (∀ entry ∈ plan.2.2, plan.2.1.checkInsertable entry.2 = .ok ()) ∧
    next = store.enter plan.1 (some { relation with
      rows := (relation.rows.filter predicate.accepts).map (Row.image set) ++
        relation.rows.filter fun row => !predicate.accepts row })

/-- The revisions of rows are their images if all of these fit, in whatever order the store has the
rows. -/
theorem agrees_revise {heap : HeapFile} {schema : Schema} (schema_eq : heap.schema = schema)
    (set : List (Nat × Value)) {found : List (RowId × Row)} {rows : List Row}
    (perm : (found.map Prod.snd).Perm rows) :
    Agrees (fun revisions _ =>
        revisions = (found.map fun entry => (entry.1, Row.image set entry.2)) ∧
          ∀ entry ∈ revisions, heap.checkInsertable entry.2 = .ok ())
      (found.mapM fun entry => revise heap set entry.1 entry.2)
      ((rows.map (Row.image set)).mapM (Store.checkFits schema)) := by
  have each : ∀ entry : RowId × Row, Agrees (fun _ _ => True)
      ((heap.checkInsertable (assign entry.2 set)).mapError EngineError.storage)
      (Store.checkFits schema (Row.image set entry.2)) := by
    intro entry
    rw [assign_eq_image]
    exact (agrees_checkInsertable schema_eq _).errorLeft EngineError.storage
  have checked : Agrees (fun _ _ => True)
      (found.mapM fun entry =>
        (heap.checkInsertable (assign entry.2 set)).mapError EngineError.storage)
      ((rows.map (Row.image set)).mapM (Store.checkFits schema)) := by
    have listed := Agrees.mapM_perm (Store.checkFits schema) (perm.map (Row.image set))
    rw [List.mapM_map, List.mapM_map] at listed
    exact (Agrees.mapM each found).trans listed fun _ _ _ _ _ => trivial
  rw [mapM_revise]
  refine checked.known.mapLeft fun verdicts _ passed => ⟨?_, fun entry member => ?_⟩
  · exact List.map_congr_left fun entry _ => by rw [assign_eq_image]
  · obtain ⟨old, among, rfl⟩ := List.mem_map.mp member
    obtain ⟨_, fits⟩ := Outcome.exists_of_mapM_eq_ok passed.1 among
    exact Outcome.mapError_eq_ok_iff.mp fits

theorem Shows.revision (shows : engine.Shows store) (target : Source) (columns : List String)
    (values : List Expr) (condition : Option Expr) :
    Agrees (Updated store) (engine.revision target columns values condition)
      (store.update target columns values condition) := by
  rw [Engine.revision, Store.update]
  refine (Agrees.refl (fun _ => rfl) target.targetTable).bind fun table _ same => ?_
  subst same
  refine (shows table).known.bind fun found relation held => ?_
  obtain ⟨schema, heap⟩ := found
  obtain ⟨_, shown, rfl, carries⟩ := held
  have entered := (Store.table_eq_ok_iff _ _ _).mp shown
  refine (Agrees.refl (fun _ => rfl) (assignments relation.schema columns values)).bind
    fun set _ same => ?_
  subst same
  simp only [Engine.candidates, bind_assoc]
  refine (shows.compileWhere relation.schema condition).bind fun first second tested => ?_
  refine ((carries.agrees_scanWhere tested).errorRight EngineError.eval).bind fun found _ selected => ?_
  rw [tested.accepts_eq] at selected
  have perm : (found.map Prod.snd).Perm (relation.rows.filter second.accepts) := by
    rw [selected]
    exact carries.filter_perm second.accepts
  refine (agrees_revise carries.schema_eq set perm).bind fun revisions _ held => ?_
  obtain ⟨rfl, fit⟩ := held
  exact .answered _ _ ⟨relation, second, set, entered, carries, by rw [selected], fit, rfl⟩

end Engine

end RowStore
