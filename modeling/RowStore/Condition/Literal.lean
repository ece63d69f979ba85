import RowStore.Condition.Error

/-!
Literals as values. What a number is depends on the column it is stored in or compared with: an
integer, which may be written with a fraction of zeros or with an exponent, or a single-precision
number.
-/

namespace RowStore

/-- An integer that fits 32 bits. -/
def int32? (number : Int) : Option Int32 :=
  if Int32.minValue.toInt ≤ number ∧ number ≤ Int32.maxValue.toInt then some (Int32.ofInt number) else none

/-- The integer that a numeral writes: its digits as they are, or else the number it comes to in 53
binary digits, if that is an integer. -/
def readInt32? (written : String) : Option Int32 :=
  match (Number.readInt? written).bind int32? with
  | some number => some number
  | none =>
    match Number.readNumeral? written with
    | some (.finite decimal) => decimal.toInt?.bind int32?
    | _ => none

namespace Literal

/-- A literal as it is shown in a message. -/
def shown : Literal → String
  | number written => written
  | string content => "'" ++ content ++ "'"
  | boolean truth => if truth then "true" else "false"
  | null => "NULL"

/-- The value that a column of the type stores for a literal. -/
def stored? : Literal → ColumnType → Option Value
  | null, _ => some .null
  | number written, .int => (readInt32? written).map .int
  | number written, .float => (Number.Single.read? written).map .float
  | string content, .varchar => some (.text content)
  | string content, .text => some (.text content)
  | boolean truth, .boolean => some (.bool truth)
  | _, _ => none

/-- The value that a column of the type is compared with. A literal of another type keeps the value
it has by itself, so that the comparison finds the mismatch. -/
def compared? : Literal → ColumnType → Option Value
  | number written, .int => (readInt32? written).map .int
  | number written, .float => (Number.Single.read? written).map .float
  | number written, _ =>
    match readInt32? written with
    | some integer => some (.int integer)
    | none => (Number.Single.read? written).map .float
  | string content, _ => some (.text content)
  | boolean truth, _ => some (.bool truth)
  | null, _ => some .null

/-- The value to store in a column. -/
def store (literal : Literal) (column : Column) : Except EvalError Value :=
  match literal.stored? column.type with
  | some value => .ok value
  | none => .error (.literal column.name literal.shown)

/-- The value to compare with a column. -/
def compareIn (literal : Literal) (column : Column) : Except EvalError Value :=
  match literal.compared? column.type with
  | some value => .ok value
  | none => .error (.literal column.name literal.shown)

end Literal

end RowStore
