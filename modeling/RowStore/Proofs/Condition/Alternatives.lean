import RowStore.Proofs.Condition.Literals
import RowStore.Proofs.Value.Laws

/-!
A column and a literal of its type. In every row the column is `NULL`, or less than the literal, or equal
to it, or greater: exactly one of the four.
-/

namespace RowStore

variable {schema : Schema} {row : Row} {column : Column} {literal : Literal} {value found : Value}
  {position : Nat} {table : Option String} {name : String}

/-- That a column is `NULL`, and that it is less than, equal to and greater than a literal. -/
def Literal.alternatives (literal : Literal) (column : Expr) : List Expr :=
  .isNull column false :: [Operator.lt, .eq, .gt].map (Expr.compare · column (.literal literal))

/-- The alternatives of a value, compiled. -/
def Predicate.alternatives (position : Nat) (value : Value) : List Predicate :=
  .isNull position false ::
    [Operator.lt, .eq, .gt].map (Predicate.compare · position (.literal value))

namespace Schema

theorem compile_comparison (operator : Operator)
    (located : schema.columnOf (.column table name) = .ok position)
    (declared : schema.columns[position]? = some column)
    (stored : literal.stored? column.type = some value)
    (runner : SubqueryRunner (Except EngineError)
      (.compare operator (.column table name) (.literal literal))) :
    compile schema (.compare operator (.column table name) (.literal literal)) runner =
      .ok (.compare operator position (.literal value)) := by
  rw [compile, compileComparison, schema.compareLiteral_of_stored? operator located declared stored]
  rfl

/-- A literal that the column can store has four alternatives of the column. -/
theorem compile_alternatives
    (located : schema.columnOf (.column table name) = .ok position)
    (declared : schema.columns[position]? = some column)
    (stored : literal.stored? column.type = some value)
    (runner : (condition : Expr) → SubqueryRunner (Except EngineError) condition) :
    (literal.alternatives (.column table name)).mapM
        (fun condition => compile schema condition (runner condition)) =
      .ok (Predicate.alternatives position value) := by
  have null (runner : SubqueryRunner (Except EngineError) (.isNull (.column table name) false)) :
      compile schema (.isNull (.column table name) false) runner = .ok (.isNull position false) := by
    rw [compile, located]
    rfl
  simp only [Literal.alternatives, List.map_cons, List.map_nil, List.mapM_cons, List.mapM_nil, null,
    compile_comparison _ located declared stored]
  rfl

end Schema

namespace Value

/-- Of two values, the first of which may be `NULL`, exactly one alternative is true. -/
theorem exists_alternatives (known : found.isNull = true ∨ found.kind = value.kind)
    (present : row.valueAt position = .ok found) :
    ∃ verdicts, (Predicate.alternatives position value).mapM (Predicate.test · row) = .ok verdicts ∧
      verdicts.count true = 1 := by
  have null : (Predicate.isNull position false).test row = .ok found.isNull := by
    rw [Predicate.test, present]
    exact congrArg _ (Bool.bne_false _)
  have compared (operator : Operator) :
      (Predicate.compare operator position (.literal value)).test row =
        (found.compareWith operator value).mapError .mismatch := by
    rw [Predicate.test, present]
    rfl
  simp only [Predicate.alternatives, List.map_cons, List.map_nil, List.mapM_cons, List.mapM_nil, null,
    compared]
  by_cases missing : found.isNull = true
  · have unknown (operator : Operator) : found.compareWith operator value = .ok false := by
      rw [compareWith, missing]
      rfl
    simp only [unknown, missing]
    exact ⟨_, rfl, rfl⟩
  · have same := known.resolve_left missing
    obtain ⟨order, ordered⟩ := exists_order_of_kind same (Bool.not_eq_true _ ▸ missing)
    simp only [compareWith_of_order? ordered, Bool.not_eq_true _ ▸ missing]
    refine ⟨_, rfl, ?_⟩
    cases order <;> rfl

end Value

/-- The comparison of values obeys the laws of a strict total order on each kind, which is the order of
integers, of single-precision numbers and of bytes; it says the same with its sides exchanged; and for a
column and a literal that the column can store exactly one alternative is true of every row. -/
theorem comparison_laws :
    (∀ kind, kind ≠ .null → Value.OrderLaws kind) ∧
    (∀ left right : Value, Value.Holds .lt left right ↔ left.Precedes right) ∧
    (∀ (operator : Operator) (left right : Value), right.compareWith operator.mirrored left =
      (left.compareWith operator right).mapError TypeMismatch.mirrored) ∧
    ∀ (schema : Schema) (table : Option String) (name : String) (position : Nat) (column : Column)
      (literal : Literal) (value : Value)
      (runner : (condition : Expr) → SubqueryRunner (Except EngineError) condition),
      schema.columnOf (.column table name) = .ok position →
      schema.columns[position]? = some column →
      literal ≠ .null → literal.stored? column.type = some value →
      ∃ predicates, (literal.alternatives (.column table name)).mapM
          (fun condition => compile schema condition (runner condition)) = .ok predicates ∧
        ∀ row, schema.Admits row →
          ∃ verdicts, predicates.mapM (Predicate.test · row) = .ok verdicts ∧ verdicts.count true = 1 := by
  refine ⟨fun kind plain => Value.orderLaws plain, fun _ _ => Value.holds_lt_iff,
    fun operator left right => Value.compareWith_mirrored operator left right, ?_⟩
  intro schema table name position column literal value runner located declared plain stored
  refine ⟨_, schema.compile_alternatives located declared stored runner, fun row admits => ?_⟩
  have inside := (List.getElem?_eq_some_iff.mp declared).1
  obtain ⟨found, present⟩ := Row.exists_valueAt (admits.length_eq.symm ▸ inside)
  have kept : value.kind = column.type.kind :=
    ((value.fits_iff column.type).mp (Literal.fits_of_stored? stored)).resolve_left
      (by simp [Literal.isNull_of_stored? plain stored])
  have known : found.isNull = true ∨ found.kind = value.kind := by
    refine (Operand.kindIn_of_valueIn admits (.column position) present).imp id fun same => ?_
    rw [Operand.kindIn, declared] at same
    exact (kept.trans (Option.some.inj same)).symm
  exact Value.exists_alternatives known present

/-- A column of single-precision numbers and the negative zero, which stands before the positive one. -/
theorem comparison_laws_negative_zero :
    let schema : Schema := ⟨"t", [.ofType "a" .float]⟩
    let zero : Value := .float ⟨0⟩
    let negative : Value := .float ⟨0x80000000⟩
    Value.OrderLaws .float ∧ Value.Holds .lt negative zero ∧
      (Literal.number "-0.0").stored? .float = some negative ∧
      ∃ predicates, ((Literal.number "-0.0").alternatives (.column none "a")).mapM
          (fun condition => compile schema condition none) =
            (.ok predicates : Except EngineError (List Predicate)) ∧
        ∀ row, schema.Admits row → ∃ verdicts,
          predicates.mapM (Predicate.test · row) = .ok verdicts ∧ verdicts.count true = 1 := by
  intro schema zero negative
  obtain ⟨laws, before, _, alternatives⟩ := comparison_laws
  have located : schema.columnOf (.column none "a") = .ok 0 :=
    Schema.columnOf_of_named? (by decide +kernel)
  have stored : (Literal.number "-0.0").stored? .float = some negative := by decide +kernel
  refine ⟨laws .float nofun, (before negative zero).mpr (.float ?_), stored, ?_⟩
  · exact Number.Single.rank_lt_rank_iff.mp (by decide)
  · exact alternatives schema none "a" 0 (.ofType "a" .float) (.number "-0.0") negative (fun _ => none)
      located rfl nofun stored

end RowStore
