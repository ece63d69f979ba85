import RowStore.Schema.Basic
import RowStore.Text.Blank

/-!
The schemas that can be stored. The catalog separates names by blanks, so no name is empty or
holds one, and no two columns of a table share a name.
-/

namespace RowStore

/-- Why a schema cannot be stored. -/
inductive SchemaFault where
  | tableName (name : String)
  | noColumns (table : String)
  | columnName (name table : String)
  | duplicateColumn (name table : String)
  deriving DecidableEq, Repr

def SchemaFault.message : SchemaFault → String
  | tableName name => s!"invalid table name '{name}'"
  | noColumns table => s!"table '{table}' has no columns"
  | columnName name table => s!"invalid column name '{name}' in table {table}"
  | duplicateColumn name table => s!"duplicate column '{name}' in table {table}"

namespace Schema

/-- Whether a name can stand between blanks. -/
def isWord (name : String) : Bool := !name.toList.isEmpty && !name.toList.any Text.isBlank

/-- Checks columns in order, with the folded names of those before them. -/
def checkColumns (table : String) (seen : List String) : List Column → Except SchemaFault Unit
  | [] => .ok ()
  | column :: rest =>
    if !isWord column.name then .error (.columnName column.name table)
    else if seen.contains (Text.fold column.name) then .error (.duplicateColumn column.name table)
    else checkColumns table (Text.fold column.name :: seen) rest

/-- The first fault of a schema: its table name, then its columns. -/
def check (schema : Schema) : Except SchemaFault Unit :=
  if !isWord schema.table then .error (.tableName schema.table)
  else if schema.columns.isEmpty then .error (.noColumns schema.table)
  else checkColumns schema.table [] schema.columns

end Schema

end RowStore
