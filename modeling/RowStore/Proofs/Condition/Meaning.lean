import RowStore.Condition.Compile
import RowStore.Proofs.Outcome
import RowStore.Proofs.Value.Order

/-!
What a condition means in a row, without being compiled: names are looked up, literals read and
sub-queries run where the row needs them. A compiled condition has this meaning on every row that has
all columns.
-/

namespace RowStore

variable {schema : Schema} {row : Row}

/-- Whether two values compare equal. -/
def Value.equals (value other : Value) : Bool := (value.compareWith .eq other).toOption.getD false

namespace Expr

/-- The value of the column that an expression names. -/
def valueIn (schema : Schema) (row : Row) (expr : Expr) : Except EvalError Value := do
  row.valueAt (← schema.columnOf expr)

/-- The value of one side of a comparison. A literal is what the column on the other side makes of
it. -/
def sideIn (schema : Schema) (row : Row) (side other : Expr) : Except EvalError Value :=
  match side with
  | .literal constant => do
    let position ← schema.columnOf other
    match schema.columns[position]? with
    | some declared => constant.compareIn declared
    | none => throw (.columnOutsideRow position)
  | side => side.valueIn schema row

theorem subqueries_and_left (left right : Expr) :
    ∀ query ∈ left.subqueries, query ∈ (Expr.and left right).subqueries :=
  fun _ member => List.mem_append_left _ member

theorem subqueries_and_right (left right : Expr) :
    ∀ query ∈ right.subqueries, query ∈ (Expr.and left right).subqueries :=
  fun _ member => List.mem_append_right _ member

theorem subqueries_or_left (left right : Expr) :
    ∀ query ∈ left.subqueries, query ∈ (Expr.or left right).subqueries :=
  fun _ member => List.mem_append_left _ member

theorem subqueries_or_right (left right : Expr) :
    ∀ query ∈ right.subqueries, query ∈ (Expr.or left right).subqueries :=
  fun _ member => List.mem_append_right _ member

theorem mem_subqueries_inSelect (operand : Expr) (query : Select) :
    query ∈ (Expr.inSelect operand query).subqueries :=
  List.mem_singleton_self query

/-- Whether a row meets a condition: comparisons are made in the order in which they are written, and
the right side of `AND` and `OR` counts only where the left side does not decide. -/
def evaluate (schema : Schema) (row : Row) :
    (condition : Expr) → SubqueryRunner (Except EngineError) condition → Except EngineError Bool
  | .and left right, runner => do
    if ← evaluate schema row left (runner.part (subqueries_and_left left right)) then
      evaluate schema row right (runner.part (subqueries_and_right left right))
    else return false
  | .or left right, runner => do
    if ← evaluate schema row left (runner.part (subqueries_or_left left right)) then return true
    else evaluate schema row right (runner.part (subqueries_or_right left right))
  | .compare operator left right, _ => do
    let first ← (left.sideIn schema row right).mapError .eval
    let second ← (right.sideIn schema row left).mapError .eval
    (first.compareWith operator second).mapError fun cause => .eval (.mismatch cause)
  | .isNull operand negated, _ => do
    return (← (operand.valueIn schema row).mapError .eval).isNull != negated
  | .inSelect operand query, some run => do
    let value ← (operand.valueIn schema row).mapError .eval
    let rows ← run query (mem_subqueries_inSelect operand query)
    return rows.any fun other => other.head?.any value.equals
  | condition, _ => .error (.eval (.unsupported (.condition condition)))

end Expr

/-- The outcome of a test is that of another one, but that a mismatch may be reported with its sides
exchanged. Nothing else can fail. -/
inductive SameOutcome : Except EngineError Bool → Except EvalError Bool → Prop where
  | decided (accepted : Bool) : SameOutcome (.ok accepted) (.ok accepted)
  | mismatch (cause : TypeMismatch) :
      SameOutcome (.error (.eval (.mismatch cause))) (.error (.mismatch cause))
  | mirrored (cause : TypeMismatch) :
      SameOutcome (.error (.eval (.mismatch cause))) (.error (.mismatch cause.mirrored))

namespace SameOutcome

variable {first third : Except EngineError Bool} {second fourth : Except EvalError Bool}

theorem and (left : SameOutcome first second) (right : SameOutcome third fourth) :
    SameOutcome (do if ← first then third else return false)
      (do if ← second then fourth else return false) := by
  cases left with
  | decided accepted =>
    cases accepted with
    | true => exact right
    | false => exact .decided false
  | mismatch cause => exact .mismatch cause
  | mirrored cause => exact .mirrored cause

theorem or (left : SameOutcome first second) (right : SameOutcome third fourth) :
    SameOutcome (do if ← first then return true else third)
      (do if ← second then return true else fourth) := by
  cases left with
  | decided accepted =>
    cases accepted with
    | true => exact .decided true
    | false => exact right
  | mismatch cause => exact .mismatch cause
  | mirrored cause => exact .mirrored cause

theorem compared (result : Except TypeMismatch Bool) :
    SameOutcome (result.mapError fun cause => .eval (.mismatch cause)) (result.mapError .mismatch) := by
  cases result with
  | ok accepted => exact .decided accepted
  | error cause => exact .mismatch cause

theorem comparedMirrored (result : Except TypeMismatch Bool) :
    SameOutcome (result.mapError fun cause => .eval (.mismatch cause))
      ((result.mapError TypeMismatch.mirrored).mapError .mismatch) := by
  cases result with
  | ok accepted => exact .decided accepted
  | error cause => exact .mirrored cause

theorem cause_of_error {error : EvalError} (same : SameOutcome first (.error error)) :
    ∃ cause, error = .mismatch cause := by
  cases same with
  | mismatch cause => exact ⟨cause, rfl⟩
  | mirrored cause => exact ⟨cause.mirrored, rfl⟩

end SameOutcome

namespace Schema

theorem lt_of_named? {name : String} {position : Nat} (found : schema.named? name = some position) :
    position < schema.columns.length :=
  (List.findIdx?_eq_some_iff_getElem.mp found).1

theorem lt_of_endingIn {name : String} {position : Nat} (member : position ∈ schema.endingIn name) :
    position < schema.columns.length := by
  obtain ⟨⟨column, index⟩, among, rfl⟩ := List.mem_map.mp member
  exact (List.mem_zipIdx' (List.mem_of_mem_filter among)).1

/-- A name denotes a column that is there. -/
theorem lt_of_resolve {name : String} {position : Nat} (resolved : schema.resolve name = .ok position) :
    position < schema.columns.length := by
  rw [resolve] at resolved
  cases direct : schema.named? name with
  | some index =>
    rw [direct] at resolved
    cases resolved
    exact lt_of_named? direct
  | none =>
    simp only [direct] at resolved
    cases unqualified : (schema.unqualified? name).bind schema.named? with
    | some index =>
      rw [unqualified] at resolved
      cases resolved
      obtain ⟨column, _, found⟩ := Option.bind_eq_some_iff.mp unqualified
      exact lt_of_named? found
    | none =>
      simp only [unqualified] at resolved
      match ending : schema.endingIn name with
      | [] => simp [ending] at resolved
      | [index] =>
        rw [ending] at resolved
        cases resolved
        exact lt_of_endingIn (by rw [ending]; exact List.mem_singleton_self _)
      | _ :: _ :: _ => simp [ending] at resolved

theorem lt_of_columnOf {expr : Expr} {position : Nat} (found : schema.columnOf expr = .ok position) :
    position < schema.columns.length := by
  rw [columnOf] at found
  cases named : expr.columnName? with
  | none =>
    rw [named] at found
    cases found
  | some name =>
    simp only [named] at found
    cases resolved : schema.resolve name with
    | error error =>
      rw [resolved] at found
      cases found
    | ok index =>
      rw [resolved] at found
      cases found
      exact lt_of_resolve resolved

/-- A side of a comparison has the value of an operand in every row. -/
def Reads (schema : Schema) (side other : Expr) (operand : Operand) : Prop :=
  ∀ row, side.sideIn schema row other = operand.valueIn row

theorem reads_column {table : Option String} {name : String} (other : Expr) {position : Nat}
    (found : schema.columnOf (.column table name) = .ok position) :
    schema.Reads (.column table name) other (.column position) := by
  intro row
  rw [Expr.sideIn, Expr.valueIn, found]
  · rfl
  · intro literal never
    cases never

theorem columnOf_of_named? {name : String} {position : Nat}
    (named : schema.named? name = some position) :
    schema.columnOf (.column none name) = .ok position := by
  simp only [columnOf, Expr.columnName?, resolve, named, Except.mapError]

/-- What a comparison is compiled to: the sides as they stand, or exchanged where the column stands on
the right. -/
inductive Compares (schema : Schema) (operator : Operator) (left right : Expr) : Predicate → Prop where
  | written (position : Nat) (operand : Operand) (inside : position < schema.columns.length)
      (within : ∀ other, operand = .column other → other < schema.columns.length)
      (first : schema.Reads left right (.column position)) (second : schema.Reads right left operand) :
      Compares schema operator left right (.compare operator position operand)
  | exchanged (position : Nat) (value : Value) (inside : position < schema.columns.length)
      (first : schema.Reads left right (.literal value))
      (second : schema.Reads right left (.column position)) :
      Compares schema operator left right (.compare operator.mirrored position (.literal value))

/-- A comparison with a literal reads the literal as the column does. -/
theorem compareLiteral_eq_ok {operator : Operator} {column : Expr} {literal : Literal}
    {predicate : Predicate}
    (compiled : schema.compareLiteral operator column literal = .ok predicate) :
    ∃ position value, schema.columnOf column = .ok position ∧
      schema.Reads (.literal literal) column (.literal value) ∧
      predicate = .compare operator position (.literal value) := by
  rw [compareLiteral] at compiled
  obtain ⟨position, found, compiled⟩ := Outcome.bind_eq_ok_iff.mp compiled
  cases declared : schema.columns[position]? with
  | none =>
    rw [declared] at compiled
    cases compiled
  | some column =>
    rw [declared] at compiled
    obtain ⟨value, read, done⟩ := Outcome.bind_eq_ok_iff.mp compiled
    cases done
    refine ⟨position, value, found, fun row => ?_, rfl⟩
    simp only [Expr.sideIn, found, declared, read, bind, Except.bind, Operand.valueIn]

theorem compares_of_compileComparison {operator : Operator} {left right : Expr} {predicate : Predicate}
    (compiled : schema.compileComparison operator left right = .ok predicate) :
    schema.Compares operator left right predicate := by
  rw [compileComparison.eq_def] at compiled
  split at compiled
  · obtain ⟨first, foundLeft, compiled⟩ := Outcome.bind_eq_ok_iff.mp compiled
    obtain ⟨second, foundRight, done⟩ := Outcome.bind_eq_ok_iff.mp compiled
    cases done
    refine .written first (.column second) (lt_of_columnOf foundLeft) ?_
      (reads_column _ foundLeft) (reads_column _ foundRight)
    rintro _ ⟨⟩
    exact lt_of_columnOf foundRight
  · obtain ⟨position, value, found, reads, rfl⟩ := compareLiteral_eq_ok compiled
    exact .written position _ (lt_of_columnOf found) (fun _ never => by cases never)
      (reads_column _ found) reads
  · obtain ⟨position, value, found, reads, rfl⟩ := compareLiteral_eq_ok compiled
    exact .exchanged position value (lt_of_columnOf found) reads (reads_column _ found)
  · cases compiled
  · cases compiled

end Schema

theorem Row.exists_valueAt {position : Nat} (inside : position < row.length) :
    ∃ value, row.valueAt position = .ok value := by
  rw [valueAt, List.getElem?_eq_getElem inside]
  exact ⟨_, rfl⟩

/-- The compiled comparison has the outcome of the written one. -/
theorem Schema.Compares.sameOutcome {operator : Operator} {left right : Expr} {predicate : Predicate}
    (compares : schema.Compares operator left right predicate)
    (runner : SubqueryRunner (Except EngineError) (.compare operator left right))
    (wide : schema.columns.length ≤ row.length) :
    SameOutcome (Expr.evaluate schema row (.compare operator left right) runner)
      (predicate.test row) := by
  rw [Expr.evaluate]
  cases compares with
  | written position operand inside within first second =>
    obtain ⟨value, read⟩ := Row.exists_valueAt (Nat.lt_of_lt_of_le inside wide)
    have present : ∃ other, operand.valueIn row = .ok other := by
      cases operand with
      | column other => exact Row.exists_valueAt (Nat.lt_of_lt_of_le (within other rfl) wide)
      | literal other => exact ⟨other, rfl⟩
    obtain ⟨other, readOther⟩ := present
    rw [first row, second row, Predicate.test, Operand.valueIn, read, readOther]
    exact .compared (value.compareWith operator other)
  | exchanged position value inside first second =>
    obtain ⟨other, read⟩ := Row.exists_valueAt (Nat.lt_of_lt_of_le inside wide)
    rw [first row, second row, Predicate.test, Operand.valueIn, Operand.valueIn, read]
    have exchanged := SameOutcome.comparedMirrored (value.compareWith operator other)
    rw [← Value.compareWith_mirrored] at exchanged
    exact exchanged

/-- The members of a sub-query are the values that compare equal to the first one of some row. -/
theorem contains_membersOf_eq_any (rows : List Row) (value : Value) :
    (membersOf rows).contains value = rows.any fun other => other.head?.any value.equals := by
  rw [Bool.eq_iff_iff, List.contains_iff_mem, membersOf, List.mem_eraseDups, List.mem_filter,
    List.mem_filterMap, List.any_eq_true]
  have equal (first : Value) : value.equals first = true ↔ value = first ∧ value.isNull = false := by
    rw [← Value.compareWith_eq_ok_true_iff, Value.equals]
    cases value.compareWith .eq first <;> simp [Except.toOption]
  constructor
  · rintro ⟨⟨other, member, first⟩, plain⟩
    refine ⟨other, member, ?_⟩
    rw [first, Option.any_some, equal]
    exact ⟨rfl, by simpa using plain⟩
  · rintro ⟨other, member, found⟩
    cases first : other.head? with
    | none =>
      rw [first] at found
      cases found
    | some candidate =>
      rw [first, Option.any_some, equal] at found
      obtain ⟨rfl, plain⟩ := found
      exact ⟨⟨other, member, first⟩, by rw [plain]; rfl⟩

/-- The column that a compiled condition looks at has a value in every row with all columns. -/
theorem valueIn_eq_ok {operand : Expr} {position : Nat} (found : schema.columnOf operand = .ok position)
    (wide : schema.columns.length ≤ row.length) :
    ∃ value, row.valueAt position = .ok value ∧ operand.valueIn schema row = .ok value := by
  obtain ⟨value, read⟩ :=
    Row.exists_valueAt (Nat.lt_of_lt_of_le (Schema.lt_of_columnOf found) wide)
  refine ⟨value, read, ?_⟩
  rw [Expr.valueIn, found]
  exact read

theorem liftEval_eq {Answer : Type} (result : Except EvalError Answer) :
    (liftEval result : Except EngineError Answer) = result.mapError .eval := by
  cases result <;> rfl

/-- A condition that is compiled has the outcome of the condition itself on every row with all columns
of the schema. The only failure left is a mismatch of types. -/
theorem evaluate_of_compile {condition : Expr} {runner : SubqueryRunner (Except EngineError) condition}
    {predicate : Predicate} (compiled : compile schema condition runner = .ok predicate)
    (wide : schema.columns.length ≤ row.length) :
    SameOutcome (condition.evaluate schema row runner) (predicate.test row) := by
  induction condition using Expr.subqueries.induct generalizing predicate with
  | case1 left right leftSame rightSame =>
    rw [compile] at compiled
    obtain ⟨first, compiledLeft, compiled⟩ := Outcome.bind_eq_ok_iff.mp compiled
    obtain ⟨second, compiledRight, done⟩ := Outcome.bind_eq_ok_iff.mp compiled
    cases done
    rw [Expr.evaluate, Predicate.test]
    exact (leftSame compiledLeft).and (rightSame compiledRight)
  | case2 left right leftSame rightSame =>
    rw [compile] at compiled
    obtain ⟨first, compiledLeft, compiled⟩ := Outcome.bind_eq_ok_iff.mp compiled
    obtain ⟨second, compiledRight, done⟩ := Outcome.bind_eq_ok_iff.mp compiled
    cases done
    rw [Expr.evaluate, Predicate.test]
    exact (leftSame compiledLeft).or (rightSame compiledRight)
  | case3 operand query =>
    rw [compile, liftEval_eq] at compiled
    obtain ⟨position, found, compiled⟩ := Outcome.bind_eq_ok_iff.mp compiled
    obtain ⟨value, read, valueIn⟩ := valueIn_eq_ok (Outcome.mapError_eq_ok_iff.mp found) wide
    cases runner with
    | none => cases compiled
    | some run =>
      obtain ⟨rows, answered, done⟩ := Outcome.bind_eq_ok_iff.mp compiled
      cases done
      simp only [Expr.evaluate, Predicate.test, valueIn, read, answered, Except.mapError, bind,
        Except.bind, contains_membersOf_eq_any]
      exact .decided _
  | case4 condition noAnd noOr noQuery =>
    cases condition with
    | and left right => exact absurd rfl (noAnd left right)
    | or left right => exact absurd rfl (noOr left right)
    | inSelect operand query => exact absurd rfl (noQuery operand query)
    | compare operator left right =>
      rw [compile, liftEval_eq, Outcome.mapError_eq_ok_iff] at compiled
      exact (Schema.compares_of_compileComparison compiled).sameOutcome runner wide
    | isNull operand negated =>
      rw [compile, liftEval_eq] at compiled
      obtain ⟨position, found, done⟩ := Outcome.bind_eq_ok_iff.mp compiled
      obtain ⟨value, read, valueIn⟩ := valueIn_eq_ok (Outcome.mapError_eq_ok_iff.mp found) wide
      cases done
      simp only [Expr.evaluate, Predicate.test, valueIn, read, Except.mapError, bind, Except.bind]
      exact .decided _
    | not operand => cases compiled
    | literal constant => cases compiled
    | column table name => cases compiled

/-- Compilation preserves the meaning of a condition: on every row with all columns of the schema the
compiled condition has the outcome of the condition itself, and the only failure left is a mismatch of
types. -/
theorem compile_preserves_meaning {condition : Expr}
    {runner : SubqueryRunner (Except EngineError) condition} {predicate : Predicate}
    (compiled : compile schema condition runner = .ok predicate)
    (wide : schema.columns.length ≤ row.length) :
    SameOutcome (condition.evaluate schema row runner) (predicate.test row) ∧
      ∀ error, predicate.test row = .error error → ∃ cause, error = .mismatch cause := by
  have same := evaluate_of_compile compiled wide
  refine ⟨same, fun error failed => ?_⟩
  rw [failed] at same
  exact same.cause_of_error

/-- A text on the left of the column it is compared with, and a sub-query that answers a `NULL` as
well. -/
theorem compile_preserves_meaning_subquery :
    let schema : Schema := ⟨"t", [.ofType "a" .text]⟩
    let query : Select := ⟨[.all], .table "u" none, none⟩
    let condition : Expr :=
      .and (.compare .le (.literal (.string "m")) (.column none "A")) (.inSelect (.column none "a") query)
    let runner : SubqueryRunner (Except EngineError) condition :=
      some fun _ _ => .ok [[.text "x"], [.null]]
    let predicate : Predicate :=
      .and (.compare .ge 0 (.literal (.text "m"))) (.isIn 0 [.text "x"])
    compile schema condition runner = .ok predicate ∧
      SameOutcome (condition.evaluate schema [.text "x"] runner) (predicate.test [.text "x"]) ∧
      predicate.test [.text "x"] = .ok true := by
  intro schema query condition runner predicate
  have upper : schema.columnOf (.column none "A") = .ok 0 :=
    Schema.columnOf_of_named? (by decide +kernel)
  have lower : schema.columnOf (.column none "a") = .ok 0 :=
    Schema.columnOf_of_named? (by decide +kernel)
  have compiled : compile schema condition runner = .ok predicate := by
    simp only [condition, compile, Schema.compileComparison, Schema.compareLiteral, upper, lower]
    rfl
  have wide : schema.columns.length ≤ [Value.text "x"].length := Nat.le_refl 1
  exact ⟨compiled, (compile_preserves_meaning compiled wide).1, by with_unfolding_all rfl⟩

end RowStore
