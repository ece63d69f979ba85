import RowStore.Proofs.Condition.Meaning
import RowStore.Proofs.Relation.Bags
import RowStore.Proofs.Row.Shape

/-!
Relations whose rows follow their schema. Filters, other names, joins and select lists keep rows and
schema aligned, and a condition on aligned rows finds every column it looks at.
-/

namespace RowStore

open Outcome (Avoids)

/-- A column that is looked for beyond the end of a row. -/
def EvalError.IsOutside : EvalError → Prop
  | columnOutsideRow _ => True
  | _ => False

def EngineError.IsOutside : EngineError → Prop
  | eval error => error.IsOutside
  | _ => False

/-- A condition that finds its columns in every row of at least the given number of values. -/
def Predicate.Regards (predicate : Predicate) (width : Nat) : Prop :=
  ∀ row : Row, width ≤ row.length → Avoids EvalError.IsOutside (fun _ => True) (predicate.test row)

/-- Rows that all follow the schema they come with. -/
def Relation.Aligned (relation : Relation) : Prop := ∀ row ∈ relation.rows, relation.schema.Admits row

variable {schema : Schema} {row : Row} {predicate : Predicate}

namespace Schema

theorem avoids_resolve (schema : Schema) (name : String) :
    Avoids EvalError.IsOutside (· < schema.columns.length)
      ((schema.resolve name).mapError EvalError.lookup) := by
  cases resolved : schema.resolve name with
  | error error => exact not_false
  | ok position => exact lt_of_resolve resolved

theorem avoids_columnOf (schema : Schema) (expr : Expr) :
    Avoids EvalError.IsOutside (· < schema.columns.length) (schema.columnOf expr) := by
  rw [columnOf]
  cases expr.columnName? with
  | none => exact not_false
  | some name => exact schema.avoids_resolve name

theorem avoids_compareLiteral (schema : Schema) (operator : Operator) (column : Expr)
    (literal : Literal) :
    Avoids EvalError.IsOutside (fun _ => True) (schema.compareLiteral operator column literal) := by
  refine (schema.avoids_columnOf column).bind fun position inside => ?_
  simp only [List.getElem?_eq_getElem inside, Literal.compareIn]
  cases literal.compared? schema.columns[position].type with
  | none => exact not_false
  | some value => exact trivial

theorem avoids_compileComparison (schema : Schema) (operator : Operator) (left right : Expr) :
    Avoids EvalError.IsOutside (fun _ => True) (schema.compileComparison operator left right) := by
  rw [compileComparison.eq_def]
  split
  · exact (schema.avoids_columnOf _).bind fun _ _ => (schema.avoids_columnOf _).bind fun _ _ => trivial
  · exact schema.avoids_compareLiteral ..
  · exact schema.avoids_compareLiteral ..
  · exact not_false
  · exact not_false

end Schema

theorem avoids_eval {Answer : Type} {good : Answer → Prop} {result : Except EvalError Answer}
    (avoids : Avoids EvalError.IsOutside good result) :
    Avoids EngineError.IsOutside good (result.mapError EngineError.eval) :=
  avoids.mapError fun _ outside => outside

theorem avoids_liftEval {Answer : Type} {good : Answer → Prop} {result : Except EvalError Answer}
    (avoids : Avoids EvalError.IsOutside good result) :
    Avoids EngineError.IsOutside good (liftEval result : Except EngineError Answer) := by
  rw [liftEval_eq]
  exact avoids_eval avoids

/-- A condition whose sub-queries do not fail for want of a column does not either. -/
theorem avoids_compile (schema : Schema) {condition : Expr}
    {runner : SubqueryRunner (Except EngineError) condition}
    (answers : ∀ run, runner = some run → ∀ query member,
      Avoids EngineError.IsOutside (fun _ => True) (run query member)) :
    Avoids EngineError.IsOutside (fun _ => True) (compile schema condition runner) := by
  have part {whole part : Expr} {runner : SubqueryRunner (Except EngineError) whole}
      {included : ∀ query ∈ part.subqueries, query ∈ whole.subqueries}
      (answers : ∀ run, runner = some run → ∀ query member,
        Avoids EngineError.IsOutside (fun _ => True) (run query member)) (run)
      (given : runner.part included = some run) (query : Select) (member : query ∈ part.subqueries) :
      Avoids EngineError.IsOutside (fun _ => True) (run query member) := by
    obtain ⟨run, same, rfl⟩ := Option.map_eq_some_iff.mp given
    exact answers run same query (included query member)
  induction condition using Expr.subqueries.induct with
  | case1 left right first second =>
    rw [compile]
    exact (first (part answers)).bind fun _ _ => (second (part answers)).bind fun _ _ => trivial
  | case2 left right first second =>
    rw [compile]
    exact (first (part answers)).bind fun _ _ => (second (part answers)).bind fun _ _ => trivial
  | case3 operand query =>
    rw [compile]
    refine (avoids_liftEval (schema.avoids_columnOf operand)).bind fun position _ => ?_
    cases runner with
    | none => exact not_false
    | some run => exact (answers run rfl query _).bind fun _ _ => trivial
  | case4 condition noAnd noOr noQuery =>
    cases condition with
    | and left right => exact absurd rfl (noAnd left right)
    | or left right => exact absurd rfl (noOr left right)
    | inSelect operand query => exact absurd rfl (noQuery operand query)
    | compare operator left right =>
      rw [compile]
      exact avoids_liftEval (schema.avoids_compileComparison operator left right)
    | isNull operand negated =>
      rw [compile]
      exact (avoids_liftEval (schema.avoids_columnOf operand)).bind fun _ _ => trivial
    | not operand => exact not_false
    | literal constant => exact not_false
    | column table name => exact not_false

/-- A compiled condition finds its columns in every row with all columns of its schema. -/
theorem regards_of_compile {condition : Expr}
    {runner : SubqueryRunner (Except EngineError) condition}
    (compiled : compile schema condition runner = .ok predicate) :
    predicate.Regards schema.columns.length := by
  intro row wide
  have same := evaluate_of_compile compiled wide
  cases tested : predicate.test row with
  | ok kept => exact trivial
  | error error =>
    rw [tested] at same
    obtain ⟨cause, rfl⟩ := same.cause_of_error
    exact not_false

/-- Rows are kept among those that are there. -/
theorem Predicate.Regards.avoids_keepRows {width : Nat} {rows : List Row}
    (regards : predicate.Regards width) (wide : ∀ row ∈ rows, width ≤ row.length) :
    Avoids EvalError.IsOutside (fun kept => ∀ row ∈ kept, row ∈ rows) (keepRows predicate rows) := by
  have tested := Avoids.mapM fun row member => regards row (wide row member)
  rw [keepRows_eq]
  cases verdicts : rows.mapM predicate.test with
  | error error => rwa [verdicts] at tested
  | ok _ => exact fun row member => List.mem_of_mem_filter member

namespace Schema

/-- A row of each side of a join, one behind the other. -/
theorem Admits.append {left right : Relation} {other : Row} (first : left.schema.Admits row)
    (second : right.schema.Admits other) : (Relation.joinSchema left right).Admits (row ++ other) := by
  refine List.rel_append ?_ ?_
  · exact List.forall₂_map_right_iff.mpr first
  · exact List.forall₂_map_right_iff.mpr second

theorem admits_nulls (schema : Schema) :
    schema.Admits (List.replicate schema.columns.length .null) := by
  rw [Admits]
  induction schema.columns with
  | nil => exact .nil
  | cons column rest ih => exact .cons rfl ih

end Schema

namespace Relation

variable {relation left right : Relation}

theorem Aligned.labelled (aligned : relation.Aligned) (label : Option String) :
    (relation.labelled label).Aligned := by
  cases label with
  | none => exact aligned
  | some label => exact aligned

theorem Aligned.wide (aligned : relation.Aligned) (member : row ∈ relation.rows) :
    relation.schema.columns.length ≤ row.length := (aligned row member).length_eq.ge

theorem Aligned.filter (aligned : relation.Aligned)
    (regards : predicate.Regards relation.schema.columns.length) :
    Avoids EvalError.IsOutside Aligned (relation.filter predicate) := by
  refine (regards.avoids_keepRows fun row member => aligned.wide member).bind fun kept among => ?_
  exact fun row member => aligned row (among row member)

/-- The joined rows of one left row. -/
theorem Aligned.block (aligned : right.Aligned) (admits : left.schema.Admits row)
    (regards : predicate.Regards (joinSchema left right).columns.length) (kind : JoinKind) :
    Avoids EvalError.IsOutside (fun rows => ∀ row ∈ rows, (joinSchema left right).Admits row)
      (block kind predicate right row) := by
  have paired : ∀ joined ∈ right.rows.map (row ++ ·), (joinSchema left right).Admits joined := by
    intro joined member
    obtain ⟨other, among, rfl⟩ := List.mem_map.mp member
    exact admits.append (aligned other among)
  have kept := regards.avoids_keepRows fun joined member => (paired joined member).length_eq.ge
  rw [Relation.block]
  refine kept.bind fun joined among => ?_
  split
  · -- the left row meets no right row, so that it stands beside `NULL`s
    intro joined member
    rw [List.mem_singleton.mp member]
    exact admits.append right.schema.admits_nulls
  · exact fun joined member => paired joined (among joined member)

theorem Aligned.join (aligned : left.Aligned) (other : right.Aligned)
    (regards : predicate.Regards (joinSchema left right).columns.length) (kind : JoinKind) :
    Avoids EvalError.IsOutside Aligned (join kind predicate left right) := by
  have blocks := Avoids.mapM fun row member => other.block (aligned row member) regards kind
  refine blocks.bind fun blocks admitted => fun row member => ?_
  obtain ⟨rows, among, found⟩ := List.mem_flatten.mp member
  exact admitted rows among row found

theorem avoids_itemColumn (schema : Schema) (item : SelectItem) :
    Avoids EngineError.IsOutside (· < schema.columns.length) (itemColumn schema item) := by
  cases item with
  | all => exact not_false
  | expr expr =>
    rw [itemColumn]
    cases expr.columnName? with
    | none => exact not_false
    | some name =>
      simp only
      cases resolved : schema.resolve name with
      | error error => exact not_false
      | ok position => exact Schema.lt_of_resolve resolved

/-- A select list looks at columns that are there. -/
theorem lt_of_itemColumns {items : List SelectItem} {columns : List Nat}
    (found : items.mapM (itemColumn schema) = .ok columns) :
    ∀ column ∈ columns, column < schema.columns.length := by
  have each := Avoids.mapM fun item (_ : item ∈ items) => avoids_itemColumn schema item
  rwa [found] at each

/-- The listed values of a row follow the listed columns. -/
theorem admits_listed (admits : schema.Admits row) {columns : List Nat}
    (inside : ∀ column ∈ columns, column < schema.columns.length) :
    List.Forall₂ (fun value column => value.fits column.type = true)
      (columns.map fun column => row[column]?.getD .null)
      (columns.filterMap (schema.columns[·]?)) := by
  induction columns with
  | nil => exact .nil
  | cons column rest ih =>
    have here := inside column List.mem_cons_self
    have there : column < row.length := admits.length_eq.symm ▸ here
    rw [List.map_cons, List.filterMap_cons, List.getElem?_eq_getElem here,
      List.getElem?_eq_getElem there]
    refine .cons ?_ (ih fun column member => inside column (List.mem_cons_of_mem _ member))
    exact List.Forall₂.get admits there here

theorem Aligned.project (aligned : relation.Aligned) (items : List SelectItem) :
    Avoids EngineError.IsOutside Aligned (relation.project items) := by
  have each := Avoids.mapM fun item (_ : item ∈ items) => avoids_itemColumn relation.schema item
  refine each.bind fun columns inside row member => ?_
  obtain ⟨row, among, rfl⟩ := List.mem_map.mp member
  exact admits_listed (aligned row among) inside

end Relation

end RowStore
