import RowStore.Condition.Predicate
import RowStore.Engine.Error

/-!
Relations: rows together with the schema they follow. Rows keep their order in every operation, and
the first row whose test fails is the failure of the whole.
-/

namespace RowStore

/-- Rows and their schema. -/
structure Relation where
  schema : Schema
  rows : List Row

/-- The rows that meet a condition. -/
def keepRows (predicate : Predicate) : List Row → Except EvalError (List Row)
  | [] => .ok []
  | row :: rest => do
    let kept ← predicate.test row
    let rest ← keepRows predicate rest
    return if kept then row :: rest else rest

namespace Relation

/-- The relation under another name, if one is given. -/
def labelled (relation : Relation) (label : Option String) : Relation :=
  match label with
  | some label => { relation with schema := relation.schema.renamed label }
  | none => relation

/-- The rows that meet a condition. -/
def filter (relation : Relation) (predicate : Predicate) : Except EvalError Relation := do
  return { relation with rows := ← keepRows predicate relation.rows }

/-- The column of a select item. -/
def itemColumn (schema : Schema) : SelectItem → Except EngineError Nat
  | .all => .error (.unsupported .starAmongItems)
  | .expr expr =>
    match expr.columnName? with
    | none => .error (.unsupported (.itemExpr expr))
    | some name => (schema.resolve name).mapError fun error => .eval (.lookup error)

/-- The listed columns of a relation. -/
def project (relation : Relation) (items : List SelectItem) : Except EngineError Relation := do
  let columns ← items.mapM (itemColumn relation.schema)
  return {
    schema := ⟨relation.schema.table, columns.filterMap (relation.schema.columns[·]?)⟩
    rows := relation.rows.map fun row => columns.map fun column => row[column]?.getD .null }

end Relation

end RowStore
