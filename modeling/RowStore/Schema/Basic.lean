import RowStore.Text.Name
import RowStore.Value.Basic

/-!
Schemas: the name of a table and its columns in order. The columns of a joined schema carry the
names of the sides they come from.
-/

namespace RowStore

/-- A column with its declared type and length. The length of a `VARCHAR` is advisory. -/
structure Column where
  name : String
  type : ColumnType
  length : UInt32
  deriving DecidableEq, Repr

/-- A column whose length is the size of its values, or zero for texts. -/
def Column.ofType (name : String) (type : ColumnType) : Column :=
  ⟨name, type, UInt32.ofNat (type.width?.getD 0)⟩

/-- The columns of a table, of a join or of a select list. -/
structure Schema where
  table : String
  columns : List Column
  deriving DecidableEq, Repr

namespace Schema

/-- The same columns under another name. -/
def renamed (schema : Schema) (table : String) : Schema := { schema with table }

/-- The columns of a side of a join, each under the name of that side. -/
def qualifiedColumns (schema : Schema) (side : String) : List Column :=
  schema.columns.map fun column => { column with name := Text.qualify side column.name }

/-- The schema of a join: the columns of the left side, then those of the right. -/
def merge (leftName : String) (left : Schema) (rightName : String) (right : Schema) : Schema :=
  ⟨leftName ++ "_" ++ rightName, left.qualifiedColumns leftName ++ right.qualifiedColumns rightName⟩

end Schema

end RowStore
