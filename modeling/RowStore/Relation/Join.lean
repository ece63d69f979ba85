import RowStore.Relation.Basic

/-!
Joins. Each left row in turn meets the right rows in turn, and stays with those that the condition
accepts. A left join keeps a left row that meets none, with `NULL` for every column of the right.
-/

namespace RowStore.Relation

/-- The joined rows of one left row. -/
def block (kind : JoinKind) (predicate : Predicate) (right : Relation) (row : Row) :
    Except EvalError (List Row) := do
  let joined ← keepRows predicate (right.rows.map (row ++ ·))
  if joined.isEmpty && kind == .left then
    return [row ++ List.replicate right.schema.columns.length .null]
  return joined

/-- The schema of a join: each column under the name of its side. -/
def joinSchema (left right : Relation) : Schema :=
  Schema.merge left.schema.table left.schema right.schema.table right.schema

/-- The join of two relations. -/
def join (kind : JoinKind) (predicate : Predicate) (left right : Relation) :
    Except EvalError Relation := do
  let blocks ← left.rows.mapM (block kind predicate right)
  return ⟨joinSchema left right, blocks.flatten⟩

end RowStore.Relation
