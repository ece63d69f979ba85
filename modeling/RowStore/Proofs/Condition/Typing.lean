import RowStore.Proofs.Condition.Meaning
import RowStore.Proofs.Row.Shape

/-!
Types of conditions. Whether a comparison can fail is known from the schema alone: if its sides are of
one type it never fails on a row of the schema, and if they are not it fails on every row where neither
side is `NULL`.
-/

namespace RowStore

open Outcome (Avoids)

/-- The kind of the values that a column of the type holds besides `NULL`. -/
def ColumnType.kind : ColumnType → ValueKind
  | int => .int
  | float => .float
  | boolean => .bool
  | varchar | text => .text

namespace Value

theorem fits_iff (value : Value) (type : ColumnType) :
    value.fits type = true ↔ value.isNull = true ∨ value.kind = type.kind := by
  cases value <;> cases type <;> simp [fits, isNull, kind, ColumnType.kind]

theorem order?_eq_none_of_kind {left right : Value} (apart : left.kind ≠ right.kind) :
    left.order? right = none := by
  cases left <;> cases right <;> first | rfl | exact absurd rfl apart

theorem exists_order_of_kind {left right : Value} (same : left.kind = right.kind)
    (plain : left.isNull = false) : ∃ order, left.order? right = some order := by
  cases left <;> cases right <;> simp_all [order?, kind, isNull]

/-- Values of one kind can be compared, and `NULL` with every value. -/
theorem exists_compareWith (operator : Operator) {left right : Value}
    (known : left.isNull = true ∨ right.isNull = true ∨ left.kind = right.kind) :
    ∃ verdict, left.compareWith operator right = .ok verdict := by
  rw [compareWith]
  by_cases null : (left.isNull || right.isNull) = true
  · rw [if_pos null]
    exact ⟨false, rfl⟩
  · rw [if_neg null]
    rw [Bool.or_eq_true, not_or, Bool.not_eq_true] at null
    have same := (known.resolve_left (by simp [null.1])).resolve_left null.2
    obtain ⟨order, found⟩ := exists_order_of_kind same null.1
    rw [found]
    exact ⟨_, rfl⟩

/-- Values of two kinds cannot be compared, unless one of them is `NULL`. -/
theorem compareWith_of_kind_ne (operator : Operator) {left right : Value}
    (apart : left.kind ≠ right.kind) :
    left.compareWith operator right =
      if left.isNull || right.isNull then .ok false
      else .error ⟨operator, left.kind, right.kind⟩ := by
  rw [compareWith, order?_eq_none_of_kind apart]

end Value

variable {schema : Schema} {row : Row} {kind : ValueKind} {value : Value}

/-- A value of a row fits the column of its position. -/
theorem Schema.Admits.exists_column (admits : schema.Admits row) {position : Nat}
    (present : row[position]? = some value) :
    ∃ column, schema.columns[position]? = some column ∧ value.fits column.type = true := by
  obtain ⟨inside, rfl⟩ := List.getElem?_eq_some_iff.mp present
  have within : position < schema.columns.length := admits.length_eq ▸ inside
  exact ⟨_, List.getElem?_eq_getElem within, List.Forall₂.get admits inside within⟩

namespace Operand

/-- The kind of the values that an operand has in rows of a schema, besides the `NULL` of a column. -/
def kindIn (schema : Schema) : Operand → Option ValueKind
  | column position => schema.columns[position]?.map (·.type.kind)
  | literal value => some value.kind

theorem kindIn_of_valueIn (admits : schema.Admits row) (operand : Operand)
    (read : operand.valueIn row = .ok value) :
    value.isNull = true ∨ operand.kindIn schema = some value.kind := by
  cases operand with
  | literal constant =>
    cases read
    exact .inr rfl
  | column position =>
    rw [valueIn, Row.valueAt] at read
    cases present : row[position]? with
    | none =>
      rw [present] at read
      cases read
    | some found =>
      rw [present] at read
      cases read
      obtain ⟨column, declared, fits⟩ := admits.exists_column present
      refine ((value.fits_iff column.type).mp fits).imp id fun same => ?_
      rw [kindIn, declared, same]
      rfl

theorem exists_valueIn (admits : schema.Admits row) {operand : Operand}
    (known : operand.kindIn schema = some kind) : ∃ value, operand.valueIn row = .ok value := by
  cases operand with
  | literal constant => exact ⟨constant, rfl⟩
  | column position =>
    obtain ⟨column, declared, _⟩ := Option.map_eq_some_iff.mp known
    have inside := (List.getElem?_eq_some_iff.mp declared).1
    exact Row.exists_valueAt (admits.length_eq.symm ▸ inside)

end Operand

/-- A comparison of a compiled condition: a column, and what it is compared with. -/
structure Comparison where
  operator : Operator
  column : Nat
  right : Operand

namespace Comparison

/-- The comparison as a condition of its own. -/
def predicate (comparison : Comparison) : Predicate :=
  .compare comparison.operator comparison.column comparison.right

/-- A comparison of a column with `NULL`, with a literal of its type, or with a column of its type,
where all texts are of one type. -/
def Typed (schema : Schema) (comparison : Comparison) : Prop :=
  comparison.right = .literal .null ∨
    (Operand.column comparison.column).kindIn schema = comparison.right.kindIn schema

/-- A comparison of two types: on a row of the schema it is false if one of its sides is `NULL`, and
else it fails. -/
def Clashes (schema : Schema) (comparison : Comparison) : Prop :=
  ∃ first second, first ≠ second ∧
    (Operand.column comparison.column).kindIn schema = some first ∧
    comparison.right.kindIn schema = some second ∧
    ∀ row, schema.Admits row → ∃ left right,
      row.valueAt comparison.column = .ok left ∧ comparison.right.valueIn row = .ok right ∧
      comparison.predicate.test row =
        if left.isNull || right.isNull then .ok false
        else .error (.mismatch ⟨comparison.operator, first, second⟩)

end Comparison

/-- The comparisons of a compiled condition, from left to right. -/
def Predicate.comparisons : Predicate → List Comparison
  | always => []
  | and left right => left.comparisons ++ right.comparisons
  | or left right => left.comparisons ++ right.comparisons
  | compare operator column right => [⟨operator, column, right⟩]
  | isNull _ _ => []
  | isIn _ _ => []

/-- A compiled condition each of whose comparisons is of one type. -/
def Predicate.Typed (schema : Schema) (predicate : Predicate) : Prop :=
  ∀ comparison ∈ predicate.comparisons, comparison.Typed schema

/-- A comparison of two types. -/
def EvalError.IsMismatch : EvalError → Prop
  | mismatch _ => True
  | _ => False

theorem Row.avoids_valueAt (row : Row) (position : Nat) :
    Avoids EvalError.IsMismatch (fun value => row.valueAt position = .ok value)
      (row.valueAt position) := by
  rw [valueAt]
  cases row[position]? with
  | none => exact not_false
  | some value => exact rfl

theorem Comparison.Typed.avoids_mismatch {comparison : Comparison} (typed : comparison.Typed schema)
    (admits : schema.Admits row) :
    Avoids EvalError.IsMismatch (fun _ => True) (comparison.predicate.test row) := by
  rw [Comparison.predicate, Predicate.test]
  refine (row.avoids_valueAt comparison.column).bind fun left readLeft => ?_
  have right : Avoids EvalError.IsMismatch (fun value => comparison.right.valueIn row = .ok value)
      (comparison.right.valueIn row) := by
    cases comparison.right with
    | column position => exact row.avoids_valueAt position
    | literal value => exact rfl
  refine right.bind fun right readRight => ?_
  have comparable : left.isNull = true ∨ right.isNull = true ∨ left.kind = right.kind := by
    rcases typed with null | same
    · rw [null] at readRight
      cases readRight
      exact .inr (.inl rfl)
    · rcases Operand.kindIn_of_valueIn admits (.column comparison.column) readLeft with null | first
      · exact .inl null
      · refine .inr ((Operand.kindIn_of_valueIn admits comparison.right readRight).imp id fun second => ?_)
        rw [first, second] at same
        exact Option.some.inj same
  obtain ⟨verdict, compared⟩ := Value.exists_compareWith comparison.operator comparable
  rw [compared]
  exact trivial

/-- A condition of one type in each comparison does not fail for want of one. -/
theorem Predicate.Typed.avoids_mismatch {predicate : Predicate} (typed : predicate.Typed schema)
    (admits : schema.Admits row) :
    Avoids EvalError.IsMismatch (fun _ => True) (predicate.test row) := by
  induction predicate with
  | always => exact trivial
  | and left right first second =>
    rw [test]
    refine (first fun comparison member => typed comparison (List.mem_append_left _ member)).bind
      fun accepted _ => ?_
    cases accepted with
    | false => exact trivial
    | true => exact second fun comparison member => typed comparison (List.mem_append_right _ member)
  | or left right first second =>
    rw [test]
    refine (first fun comparison member => typed comparison (List.mem_append_left _ member)).bind
      fun accepted _ => ?_
    cases accepted with
    | true => exact trivial
    | false => exact second fun comparison member => typed comparison (List.mem_append_right _ member)
  | compare operator column right =>
    exact (typed ⟨operator, column, right⟩ (List.mem_singleton_self _)).avoids_mismatch admits
  | isNull column negated => exact (row.avoids_valueAt column).bind fun _ _ => trivial
  | isIn column members => exact (row.avoids_valueAt column).bind fun _ _ => trivial

/-- A compiled condition of one type in each comparison can be tested on every row of the schema. -/
theorem exists_test_of_compile {condition : Expr}
    {runner : SubqueryRunner (Except EngineError) condition} {predicate : Predicate}
    (compiled : compile schema condition runner = .ok predicate) (typed : predicate.Typed schema)
    (admits : schema.Admits row) : ∃ verdict, predicate.test row = .ok verdict := by
  have avoids := typed.avoids_mismatch admits
  have same := evaluate_of_compile compiled admits.length_eq.ge
  cases tested : predicate.test row with
  | ok verdict => exact ⟨verdict, rfl⟩
  | error error =>
    rw [tested] at avoids same
    obtain ⟨cause, rfl⟩ := same.cause_of_error
    exact absurd trivial avoids

theorem Operand.exists_kindIn {position : Nat} (inside : position < schema.columns.length) :
    ∃ kind, (Operand.column position).kindIn schema = some kind := by
  rw [kindIn, List.getElem?_eq_getElem inside]
  exact ⟨_, rfl⟩

/-- Both sides of a compiled comparison have a type. -/
theorem exists_kinds_of_compile {condition : Expr}
    {runner : SubqueryRunner (Except EngineError) condition} {predicate : Predicate}
    (compiled : compile schema condition runner = .ok predicate) :
    ∀ comparison ∈ predicate.comparisons, ∃ first second,
      (Operand.column comparison.column).kindIn schema = some first ∧
      comparison.right.kindIn schema = some second := by
  induction condition using Expr.subqueries.induct generalizing predicate with
  | case1 left right inLeft inRight =>
    rw [compile] at compiled
    obtain ⟨first, compiledLeft, compiled⟩ := Outcome.bind_eq_ok_iff.mp compiled
    obtain ⟨second, compiledRight, done⟩ := Outcome.bind_eq_ok_iff.mp compiled
    cases done
    intro comparison member
    exact (List.mem_append.mp member).elim (inLeft compiledLeft _) (inRight compiledRight _)
  | case2 left right inLeft inRight =>
    rw [compile] at compiled
    obtain ⟨first, compiledLeft, compiled⟩ := Outcome.bind_eq_ok_iff.mp compiled
    obtain ⟨second, compiledRight, done⟩ := Outcome.bind_eq_ok_iff.mp compiled
    cases done
    intro comparison member
    exact (List.mem_append.mp member).elim (inLeft compiledLeft _) (inRight compiledRight _)
  | case3 operand query =>
    rw [compile, liftEval_eq] at compiled
    obtain ⟨position, _, compiled⟩ := Outcome.bind_eq_ok_iff.mp compiled
    cases runner with
    | none => cases compiled
    | some run =>
      obtain ⟨rows, _, done⟩ := Outcome.bind_eq_ok_iff.mp compiled
      cases done
      exact List.forall_mem_nil _
  | case4 condition noAnd noOr noQuery =>
    cases condition with
    | and left right => exact absurd rfl (noAnd left right)
    | or left right => exact absurd rfl (noOr left right)
    | inSelect operand query => exact absurd rfl (noQuery operand query)
    | compare operator left right =>
      rw [compile, liftEval_eq, Outcome.mapError_eq_ok_iff] at compiled
      cases Schema.compares_of_compileComparison compiled with
      | written position operand inside within =>
        obtain ⟨first, known⟩ := Operand.exists_kindIn inside
        refine List.forall_mem_singleton.mpr ⟨first, ?_⟩
        cases operand with
        | literal value => exact ⟨value.kind, known, rfl⟩
        | column other =>
          obtain ⟨second, knownOther⟩ := Operand.exists_kindIn (within other rfl)
          exact ⟨second, known, knownOther⟩
      | exchanged position value inside =>
        obtain ⟨first, known⟩ := Operand.exists_kindIn inside
        exact List.forall_mem_singleton.mpr ⟨first, value.kind, known, rfl⟩
    | isNull operand negated =>
      rw [compile, liftEval_eq] at compiled
      obtain ⟨position, _, done⟩ := Outcome.bind_eq_ok_iff.mp compiled
      cases done
      exact List.forall_mem_nil _
    | not operand => cases compiled
    | literal constant => cases compiled
    | column table name => cases compiled

/-- Sides of two types clash on every row that has a value in both. -/
theorem Comparison.clashes_of_not_typed {comparison : Comparison} {first second : ValueKind}
    (known : (Operand.column comparison.column).kindIn schema = some first)
    (knownRight : comparison.right.kindIn schema = some second) (untyped : ¬ comparison.Typed schema) :
    comparison.Clashes schema := by
  have apart : first ≠ second := by
    rintro rfl
    exact untyped (.inr (known.trans knownRight.symm))
  refine ⟨first, second, apart, known, knownRight, fun row admits => ?_⟩
  obtain ⟨left, readLeft⟩ := Operand.exists_valueIn admits known
  obtain ⟨right, readRight⟩ := Operand.exists_valueIn admits knownRight
  refine ⟨left, right, readLeft, readRight, ?_⟩
  have tested : comparison.predicate.test row =
      (left.compareWith comparison.operator right).mapError .mismatch := by
    rw [Operand.valueIn] at readLeft
    rw [predicate, Predicate.test, readLeft, readRight]
    rfl
  rw [tested]
  by_cases null : (left.isNull || right.isNull) = true
  · rw [if_pos null, Value.compareWith, if_pos null]
    rfl
  · rw [if_neg null]
    rw [Bool.or_eq_true, not_or] at null
    have kindLeft := (Operand.kindIn_of_valueIn admits (.column comparison.column) readLeft).resolve_left null.1
    have kindRight := (Operand.kindIn_of_valueIn admits comparison.right readRight).resolve_left null.2
    cases known.symm.trans kindLeft
    cases knownRight.symm.trans kindRight
    rw [Value.compareWith_of_kind_ne _ apart, if_neg (by simp [null])]
    rfl

/-- Types decide whether a compiled condition can fail. If each of its comparisons is of one type, it
can be tested on every row of the schema; a comparison of two types fails on every row with a value on
both sides, and is false on all others. -/
theorem compile_sound {condition : Expr} {runner : SubqueryRunner (Except EngineError) condition}
    {predicate : Predicate} (compiled : compile schema condition runner = .ok predicate) :
    (predicate.Typed schema →
      ∀ row, schema.Admits row → ∃ verdict, predicate.test row = .ok verdict) ∧
    ∀ comparison ∈ predicate.comparisons, ¬ comparison.Typed schema → comparison.Clashes schema := by
  refine ⟨fun typed row admits => exists_test_of_compile compiled typed admits, ?_⟩
  intro comparison member untyped
  obtain ⟨first, second, known, knownRight⟩ := exists_kinds_of_compile compiled comparison member
  exact comparison.clashes_of_not_typed known knownRight untyped

/-- A condition of one type in each comparison, and one in which a column is compared with a column of
another type. -/
theorem compile_sound_two_types :
    let schema : Schema := ⟨"t", [.ofType "a" .int, .ofType "b" .float, .ofType "c" .varchar]⟩
    let sound : Expr :=
      .or (.compare .lt (.literal (.number "2.0")) (.column none "a"))
        (.and (.compare .eq (.column none "b") (.literal .null))
          (.compare .ne (.column none "c") (.literal (.string "x"))))
    let clashing : Expr := .compare .le (.column none "a") (.column none "b")
    let predicate : Predicate :=
      .or (.compare .gt 0 (.literal (.int 2)))
        (.and (.compare .eq 1 (.literal .null)) (.compare .ne 2 (.literal (.text "x"))))
    compile schema sound none = (.ok predicate : Except EngineError Predicate) ∧
      (∀ row, schema.Admits row → ∃ verdict, predicate.test row = .ok verdict) ∧
      compile schema clashing none =
        (.ok (.compare .le 0 (.column 1)) : Except EngineError Predicate) ∧
      Comparison.Clashes schema ⟨.le, 0, .column 1⟩ := by
  intro schema sound clashing predicate
  have located (name : String) (position : Nat) (named : schema.named? name = some position) :
      schema.columnOf (.column none name) = .ok position := Schema.columnOf_of_named? named
  have compiled : compile schema sound none = (.ok predicate : Except EngineError Predicate) := by
    simp only [sound, compile, Schema.compileComparison, Schema.compareLiteral,
      located "a" 0 (by decide +kernel), located "b" 1 (by decide +kernel),
      located "c" 2 (by decide +kernel)]
    with_unfolding_all rfl
  have mixed : compile schema clashing none =
      (.ok (.compare .le 0 (.column 1)) : Except EngineError Predicate) := by
    simp only [clashing, compile, Schema.compileComparison,
      located "a" 0 (by decide +kernel), located "b" 1 (by decide +kernel)]
    rfl
  have typed : predicate.Typed schema := by
    rintro comparison (_ | ⟨_, _ | ⟨_, _ | ⟨_, ⟨⟩⟩⟩⟩)
    · exact .inr rfl
    · exact .inl rfl
    · exact .inr rfl
  refine ⟨compiled, (compile_sound compiled).1 typed, mixed, ?_⟩
  refine (compile_sound mixed).2 _ (List.mem_singleton_self _) ?_
  rintro (never | never)
  · cases never
  · cases never

end RowStore
