import RowStore.Condition.Literal
import RowStore.Condition.Predicate
import RowStore.Engine.Error

/-!
Conditions compiled against a schema. Names are looked up once, and each sub-query is run once, from
left to right, up to the first failure. Compilation works in any monad with failures, so that one
can watch which sub-queries are run.
-/

namespace RowStore

namespace Schema

/-- The position of the column that an expression names. -/
def columnOf (schema : Schema) (expr : Expr) : Except EvalError Nat :=
  match expr.columnName? with
  | some name => (schema.resolve name).mapError .lookup
  | none => .error (.unsupported (.columnExpected expr))

/-- A comparison of a column with a literal. -/
def compareLiteral (schema : Schema) (operator : Operator) (column : Expr) (literal : Literal) :
    Except EvalError Predicate := do
  let position ← schema.columnOf column
  match schema.columns[position]? with
  | some declared => return .compare operator position (.literal (← literal.compareIn declared))
  | none => throw (.columnOutsideRow position)

/-- A comparison of two columns, or of a column and a literal on either side of it. -/
def compileComparison (schema : Schema) (operator : Operator) (left right : Expr) :
    Except EvalError Predicate :=
  match left, right with
  | .column .., .column .. => do
    return .compare operator (← schema.columnOf left) (.column (← schema.columnOf right))
  | .column .., .literal literal => schema.compareLiteral operator left literal
  | .literal literal, .column .. => schema.compareLiteral operator.mirrored right literal
  | .literal _, .literal _ => .error (.unsupported .twoLiterals)
  | _, _ => .error (.unsupported (.operands operator left right))

end Schema

/-- How the sub-queries of a condition are run, where they can be. -/
abbrev SubqueryRunner (m : Type → Type) (condition : Expr) : Type :=
  Option ((query : Select) → query ∈ condition.subqueries → m (List Row))

/-- The runner of a condition for a part of it. -/
def SubqueryRunner.part {m : Type → Type} {whole part : Expr} (runner : SubqueryRunner m whole)
    (included : ∀ query ∈ part.subqueries, query ∈ whole.subqueries) : SubqueryRunner m part :=
  runner.map fun run query member => run query (included query member)

section

variable {m : Type → Type} [Monad m] [MonadExceptOf EngineError m]

/-- A result of compilation among the failures of a statement. -/
def liftEval {Answer : Type} : Except EvalError Answer → m Answer
  | .ok answer => pure answer
  | .error error => throw (EngineError.eval error)

/-- A condition compiled against a schema. -/
def compile (schema : Schema) : (condition : Expr) → SubqueryRunner m condition → m Predicate
  | .and left right, runner => do
    let first ← compile schema left (runner.part fun _ h => List.mem_append_left _ h)
    let second ← compile schema right (runner.part fun _ h => List.mem_append_right _ h)
    return .and first second
  | .or left right, runner => do
    let first ← compile schema left (runner.part fun _ h => List.mem_append_left _ h)
    let second ← compile schema right (runner.part fun _ h => List.mem_append_right _ h)
    return .or first second
  | .compare operator left right, _ => liftEval (schema.compileComparison operator left right)
  | .isNull operand negated, _ => do return .isNull (← liftEval (schema.columnOf operand)) negated
  | .inSelect operand query, runner => do
    let column ← liftEval (schema.columnOf operand)
    match runner with
    | none => liftEval (.error (.unsupported .noSubqueries))
    | some run => do return .isIn column (membersOf (← run query (List.mem_singleton_self query)))
  | .not _, _ => liftEval (.error (.unsupported .negation))
  | .literal value, _ => liftEval (.error (.unsupported (.condition (.literal value))))
  | .column table name, _ => liftEval (.error (.unsupported (.condition (.column table name))))

end

/-- Compilation that keeps a list of the sub-queries it has run. -/
abbrev Traced := ExceptT EngineError (StateM (List Select))

/-- A condition compiled with sub-queries answered by a function, where they can be, and the
sub-queries that were run for it, in order. -/
def compileTraced (schema : Schema) (condition : Expr)
    (answer : Option (Select → Except EngineError (List Row))) :
    Except EngineError Predicate × List Select :=
  let runner : SubqueryRunner Traced condition :=
    answer.map fun answer query _ => do
      modify (· ++ [query])
      ExceptT.mk (pure (answer query))
  (compile schema condition runner : Traced Predicate).run.run []

end RowStore
