import RowStore.Value.Basic
import RowStore.Text.Utf8

/-!
Comparison of values. A comparison with `NULL` is false, values of one kind are ordered, and values
of different kinds cannot be compared at all.
-/

namespace RowStore

/-- A comparison operator. -/
inductive Operator where
  | eq
  | ne
  | lt
  | le
  | gt
  | ge
  deriving DecidableEq, Repr

namespace Operator

/-- The operator that says the same with its two sides exchanged. -/
def mirrored : Operator → Operator
  | eq => eq
  | ne => ne
  | lt => gt
  | le => ge
  | gt => lt
  | ge => le

def symbol : Operator → String
  | eq => "="
  | ne => "<>"
  | lt => "<"
  | le => "<="
  | gt => ">"
  | ge => ">="

/-- Whether the operator holds of two values in the given order. -/
def accepts : Operator → Ordering → Bool
  | eq, order => order == .eq
  | ne, order => order != .eq
  | lt, order => order == .lt
  | le, order => order != .gt
  | gt, order => order == .gt
  | ge, order => order != .lt

end Operator

/-- Two operands whose kinds have no common order. -/
structure TypeMismatch where
  operator : Operator
  left : ValueKind
  right : ValueKind
  deriving DecidableEq, Repr

def TypeMismatch.message (mismatch : TypeMismatch) : String :=
  s!"type mismatch for {mismatch.operator.symbol}: " ++
    s!"left is {mismatch.left.name}, right is {mismatch.right.name}"

namespace Value

/-- The order of two values of one kind: integers by size, single-precision numbers by rank, texts
by their UTF-8 bytes, and `false` before `true`. -/
def order? : Value → Value → Option Ordering
  | int left, int right => some (compare left.toInt right.toInt)
  | float left, float right => some (compare left.rank right.rank)
  | text left, text right => some (compare (Text.Utf8.encode left) (Text.Utf8.encode right))
  | bool left, bool right => some (compare left right)
  | _, _ => none

/-- The outcome of a comparison. -/
def compareWith (operator : Operator) (left right : Value) : Except TypeMismatch Bool :=
  if left.isNull || right.isNull then .ok false
  else
    match left.order? right with
    | some order => .ok (operator.accepts order)
    | none => .error ⟨operator, left.kind, right.kind⟩

end Value

end RowStore
