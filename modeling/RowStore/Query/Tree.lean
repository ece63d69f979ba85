import RowStore.Value.Comparison
import RowStore.Text.Name

/-!
Queries as trees. A number stands in them as it is written, since the column it meets decides what
it is.
-/

namespace RowStore

/-- A literal as written. -/
inductive Literal where
  | number (written : String)
  | string (content : String)
  | boolean (truth : Bool)
  | null
  deriving DecidableEq, Repr

/-- How two sources are joined. A comma joins as an inner join does. -/
inductive JoinKind where
  | inner
  | comma
  | left
  | right
  | full
  deriving DecidableEq, Repr

mutual

/-- A literal, a column or a condition. -/
inductive Expr where
  | literal (value : Literal)
  | column (table : Option String) (name : String)
  | and (left right : Expr)
  | or (left right : Expr)
  | not (operand : Expr)
  | compare (operator : Operator) (left right : Expr)
  | isNull (operand : Expr) (negated : Bool)
  | inSelect (operand : Expr) (query : Select)

/-- One item of a select list. -/
inductive SelectItem where
  | all
  | expr (value : Expr)

/-- A query: its select list, where its rows come from, and which of them it keeps. -/
structure Select where
  items : List SelectItem
  source : Source
  condition : Option Expr

/-- Where the rows of a query come from. -/
inductive Source where
  | table (name : String) (label : Option String)
  | select (query : Select) (label : Option String)
  | join (kind : JoinKind) (left right : Source) (condition : Option Expr)

end

namespace Expr

/-- A column by its written name: what stands before the first dot is its table. -/
def ofName (name : String) : Expr :=
  match Text.splitAtDot name with
  | some (qualifier, last) => .column (some qualifier) last
  | none => .column none name

/-- The name under which a column is looked up. -/
def columnName? : Expr → Option String
  | .column (some table) name => some (Text.qualify table name)
  | .column none name => some name
  | _ => none

/-- The sub-queries of a condition from left to right. -/
def subqueries : Expr → List Select
  | .and left right => left.subqueries ++ right.subqueries
  | .or left right => left.subqueries ++ right.subqueries
  | .inSelect _ query => [query]
  | _ => []

end Expr

/-- Whether a select list is a star alone. -/
def isStar : List SelectItem → Bool
  | [.all] => true
  | _ => false

/-- A column as it is declared: its type as a word, and perhaps a length. -/
structure ColumnSpec where
  name : String
  typeName : String
  length : Option Int
  deriving DecidableEq, Repr

/-- A statement. -/
inductive Statement where
  | createTable (table : String) (columns : List ColumnSpec)
  | dropTable (table : String)
  | insert (table : String) (rows : List (List Expr))
  | select (query : Select)
  | update (target : Source) (columns : List String) (values : List Expr) (condition : Option Expr)
  | delete (target : Source) (condition : Option Expr)
  | other (kind : String)

/-- The kind of a statement in one word. -/
def Statement.kind : Statement → String
  | createTable .. => "CREATE_TABLE"
  | dropTable .. => "DROP_TABLE"
  | insert .. => "INSERT"
  | select .. => "SELECT"
  | update .. => "UPDATE"
  | delete .. => "DELETE"
  | other kind => kind

end RowStore
