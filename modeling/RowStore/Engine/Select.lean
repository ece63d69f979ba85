import RowStore.Condition.Compile
import RowStore.Engine.Basic
import RowStore.Heap.Scan
import RowStore.Relation.Join

/-!
Queries: first the rows of the source, then those that meet the condition, then the select list. A
table is tested row by row as it is read; every other source is complete before its rows are tested.
-/

namespace RowStore

/-- A sub-query is smaller than the condition it stands in. -/
theorem Expr.sizeOf_lt_of_mem_subqueries {condition : Expr} {query : Select}
    (member : query ∈ condition.subqueries) : sizeOf query < sizeOf condition := by
  induction condition using Expr.subqueries.induct with
  | case1 left right leftBound rightBound =>
    rw [subqueries, List.mem_append] at member
    rw [Expr.and.sizeOf_spec]
    rcases member with member | member
    · have := leftBound member; omega
    · have := rightBound member; omega
  | case2 left right leftBound rightBound =>
    rw [subqueries, List.mem_append] at member
    rw [Expr.or.sizeOf_spec]
    rcases member with member | member
    · have := leftBound member; omega
    · have := rightBound member; omega
  | case3 operand query =>
    rw [subqueries, List.mem_singleton] at member
    rw [member, Expr.inSelect.sizeOf_spec]
    omega
  | case4 condition => simp_all [subqueries]

namespace Engine

/-- The rows of a table that meet a condition, under the name given to the table. -/
def scanTable (engine : Engine) (table : String) (label : Option String)
    (condition : Schema → Except EngineError Predicate) : Except EngineError Relation := do
  let (schema, heap) ← engine.handle table
  let schema := match label with | some label => schema.renamed label | none => schema
  let predicate ← condition schema
  let rows ← heap.scanWhere .storage fun row => (predicate.test row).mapError .eval
  return ⟨schema, rows.map (·.2)⟩

mutual

/-- The answer of a query. -/
def run (engine : Engine) : Select → Except EngineError Relation
  | ⟨items, source, condition⟩ => do
    let relation ←
      match source with
      | .table table label => engine.scanTable table label (engine.compileWhere · condition)
      | source => do
        let relation ← engine.resolve source
        let predicate ← engine.compileWhere relation.schema condition
        (relation.filter predicate).mapError .eval
    if isStar items then return relation else relation.project items
termination_by query => sizeOf query

/-- A condition compiled with sub-queries answered by the engine; none holds of every row. -/
def compileWhere (engine : Engine) (schema : Schema) :
    Option Expr → Except EngineError Predicate
  | none => .ok .always
  | some condition =>
    compile schema condition (some fun query _ => do return (← engine.run query).rows)
termination_by condition => sizeOf condition
decreasing_by
  rename_i member
  have := Expr.sizeOf_lt_of_mem_subqueries member
  rw [Option.some.sizeOf_spec]
  omega

/-- The relation that a source gives. -/
def resolve (engine : Engine) : Source → Except EngineError Relation
  | .table table label => engine.scanTable table label fun _ => .ok .always
  | .select query label => do return (← engine.run query).labelled label
  | .join kind left right condition => do
    if kind == .right || kind == .full then throw (.unsupported (.join kind))
    let left ← engine.resolve left
    let right ← engine.resolve right
    let predicate ← engine.compileWhere (Relation.joinSchema left right) condition
    (Relation.join kind predicate left right).mapError .eval
termination_by source => sizeOf source

end

end Engine

end RowStore
