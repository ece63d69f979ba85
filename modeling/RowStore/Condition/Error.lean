import RowStore.Query.Description
import RowStore.Schema.Lookup

/-!
Why a condition cannot be compiled or a row cannot be tested.
-/

namespace RowStore

/-- An expression that stands where it means nothing. -/
inductive UnsupportedExpr where
  | noSubqueries
  | negation
  | condition (expr : Expr)
  | columnExpected (expr : Expr)
  | twoLiterals
  | operands (operator : Operator) (left right : Expr)

def UnsupportedExpr.message : UnsupportedExpr → String
  | noSubqueries => "sub-query is not available in this context"
  | negation => "NOT"
  | condition expr => "condition " ++ Description.expr expr
  | columnExpected expr => "expected a column reference, got " ++ Description.expr expr
  | twoLiterals => "comparison between two literals"
  | operands operator left right =>
    "comparison operand in " ++ Description.expr left ++ " " ++ operator.symbol ++ " " ++
      Description.expr right

/-- A failure of a condition. -/
inductive EvalError where
  | lookup (error : LookupError)
  | columnOutsideRow (position : Nat)
  | mismatch (cause : TypeMismatch)
  | literal (column written : String)
  | unsupported (expr : UnsupportedExpr)

def EvalError.message : EvalError → String
  | lookup error => error.message
  | columnOutsideRow position => (LookupError.unknown s!"#{position}").message
  | mismatch cause => cause.message
  | literal column written => s!"literal {written} is not valid for column '{column}'"
  | unsupported expr => "unsupported expression: " ++ expr.message

end RowStore
