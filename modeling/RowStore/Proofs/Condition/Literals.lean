import Mathlib
import RowStore.Condition.Compile

/-!
Literals and the columns that can store them. A literal that a column stores is compared with it as the
value that is stored, which fits the column.
-/

namespace RowStore

variable {literal : Literal} {value : Value} {column : Column} {type : ColumnType}

namespace Literal

theorem fits_of_stored? (stored : literal.stored? type = some value) :
    value.fits type = true := by
  cases literal with
  | null =>
    rw [stored?] at stored
    cases stored
    rfl
  | number written =>
    cases type <;> simp only [stored?, Option.map_eq_some_iff, reduceCtorEq] at stored
    all_goals
      obtain ⟨number, _, rfl⟩ := stored
      rfl
  | string content =>
    cases type <;> simp only [stored?, Option.some.injEq, reduceCtorEq] at stored
    all_goals
      subst stored
      rfl
  | boolean truth =>
    cases type <;> simp only [stored?, Option.some.injEq, reduceCtorEq] at stored
    subst stored
    rfl

theorem store_eq_ok_iff :
    literal.store column = .ok value ↔ literal.stored? column.type = some value := by
  rw [store]
  cases literal.stored? column.type <;> simp

/-- A literal that can be stored in a column is compared with it as the value that is stored. -/
theorem compared?_of_stored? (stored : literal.stored? type = some value) :
    literal.compared? type = some value := by
  cases literal <;> cases type <;> first | exact stored | cases stored

theorem isNull_of_stored? (plain : literal ≠ .null)
    (stored : literal.stored? type = some value) : value.isNull = false := by
  cases value with
  | null => cases literal <;> cases type <;> simp [stored?] at stored plain
  | int | float | bool | text => rfl

end Literal

theorem Schema.compareLiteral_of_stored? {schema : Schema} {position : Nat} {expr : Expr}
    (operator : Operator) (located : schema.columnOf expr = .ok position)
    (declared : schema.columns[position]? = some column)
    (stored : literal.stored? column.type = some value) :
    schema.compareLiteral operator expr literal = .ok (.compare operator position (.literal value)) := by
  have read : literal.compareIn column = .ok value := by
    rw [Literal.compareIn, Literal.compared?_of_stored? stored]
  rw [compareLiteral, located]
  simp only [bind, Except.bind, declared, read]
  rfl

end RowStore
