import RowStore.Condition.Error

/-!
Compiled conditions: columns are positions in a row, and the members of a sub-query are at hand.
-/

namespace RowStore

/-- What a column is compared with. -/
inductive Operand where
  | column (position : Nat)
  | literal (value : Value)
  deriving DecidableEq

/-- A condition on the rows of one schema. -/
inductive Predicate where
  | always
  | and (left right : Predicate)
  | or (left right : Predicate)
  | compare (operator : Operator) (column : Nat) (right : Operand)
  | isNull (column : Nat) (negated : Bool)
  | isIn (column : Nat) (members : List Value)
  deriving DecidableEq

/-- The value of a row at a position. -/
def Row.valueAt (row : Row) (position : Nat) : Except EvalError Value :=
  match row[position]? with
  | some value => .ok value
  | none => .error (.columnOutsideRow position)

/-- The value of an operand in a row. -/
def Operand.valueIn (operand : Operand) (row : Row) : Except EvalError Value :=
  match operand with
  | column position => row.valueAt position
  | literal value => .ok value

/-- The distinct values other than `NULL` in the first column of some rows. -/
def membersOf (rows : List Row) : List Value :=
  ((rows.filterMap List.head?).filter (!·.isNull)).eraseDups

/-- Whether a row meets a condition. The right side of `AND` and `OR` is tested only where the left
side does not decide. -/
def Predicate.test (predicate : Predicate) (row : Row) : Except EvalError Bool :=
  match predicate with
  | always => .ok true
  | and left right => do if ← left.test row then right.test row else return false
  | or left right => do if ← left.test row then return true else right.test row
  | compare operator column right => do
    let value ← row.valueAt column
    (value.compareWith operator (← right.valueIn row)).mapError .mismatch
  | isNull column negated => do return (← row.valueAt column).isNull != negated
  | isIn column members => do return members.contains (← row.valueAt column)

end RowStore
