import RowStore.Catalog.Error
import RowStore.Condition.Error
import RowStore.Heap.Error
import RowStore.Settings

/-!
Why a statement fails, and the kind of failure it is.
-/

namespace RowStore

/-- What a statement asks for that is not done. -/
inductive Unsupported where
  | columnType (typeName column : String)
  | statement (kind : String)
  | join (kind : JoinKind)
  | target
  | literalExpected (expr : Expr)
  | starAmongItems
  | itemExpr (expr : Expr)

def Unsupported.message : Unsupported → String
  | columnType typeName column => s!"column type {typeName} for column '{column}'"
  | statement kind => s!"statement kind {kind}"
  | join kind => Description.joinKind kind ++ " join"
  | target => "only simple table references are supported as a target"
  | literalExpected expr => "expected a literal value, got " ++ Description.expr expr
  | starAmongItems => "'*' combined with other select items"
  | itemExpr expr =>
    "only column names are supported in the select list, got " ++ Description.expr expr

/-- A failure of a statement. -/
inductive EngineError where
  | catalog (error : CatalogError)
  | storage (error : StorageError)
  | eval (error : EvalError)
  | settings (error : SettingsError)
  | schema (reason : String)
  | unsupported (what : Unsupported)

/-- The kinds of failure. -/
inductive ErrorKind where
  | schema
  | type
  | unsupported
  | io
  deriving DecidableEq, Repr

namespace EngineError

def message : EngineError → String
  | catalog error => "catalog error: " ++ error.message
  | storage error => "storage error: " ++ error.message
  | eval error => error.message
  | settings (.disk _) | settings .notText => "config error: io error"
  | settings .malformed => "config error: malformed config"
  | schema reason => "schema error: " ++ reason
  | unsupported what => "unsupported: " ++ what.message

def kind : EngineError → ErrorKind
  | catalog (.disk _) | catalog .notText | catalog (.invalid ..) => .io
  | catalog _ => .schema
  | storage (.mismatch (.arity ..)) | storage (.heapExists _) | storage (.heapMissing _) => .schema
  | storage (.mismatch (.valueType ..)) => .type
  | storage _ => .io
  | eval (.lookup _) | eval (.columnOutsideRow _) => .schema
  | eval (.mismatch _) | eval (.literal ..) => .type
  | eval (.unsupported _) => .unsupported
  | settings _ => .io
  | schema _ => .schema
  | unsupported _ => .unsupported

end EngineError

end RowStore
