import RowStore.Number.Single

/-!
The values of a cell and the types a column declares. A value has a runtime kind of its own; a
column type accepts the values of one kind, and `NULL` with them.
-/

namespace RowStore

/-- The declared type of a column. -/
inductive ColumnType where
  | int
  | float
  | boolean
  | varchar
  | text
  deriving DecidableEq, Repr

namespace ColumnType

/-- The bytes of a value of the type, for the types whose values are all of one size. -/
def width? : ColumnType → Option Nat
  | int | float => some 4
  | boolean => some 1
  | varchar | text => none

/-- The name under which a type is written in the catalog. -/
def name : ColumnType → String
  | int => "INT"
  | float => "FLOAT"
  | boolean => "BOOLEAN"
  | varchar => "VARCHAR"
  | text => "TEXT"

def all : List ColumnType := [int, float, boolean, varchar, text]

/-- The type of a catalog name, which is taken letter for letter. -/
def ofName? (name : String) : Option ColumnType := all.find? (·.name == name)

@[simp]
theorem ofName?_name (type : ColumnType) : ofName? type.name = some type := by
  cases type <;> decide

end ColumnType

/-- The runtime type of a value. -/
inductive ValueKind where
  | int
  | float
  | bool
  | text
  | null
  deriving DecidableEq, Repr

def ValueKind.name : ValueKind → String
  | int => "INT"
  | float => "FLOAT"
  | bool => "BOOLEAN"
  | text => "TEXT"
  | null => "NULL"

/-- The value of one cell. -/
inductive Value where
  | int (number : Int32)
  | float (number : Number.Single)
  | bool (truth : Bool)
  | text (content : String)
  | null
  deriving DecidableEq

namespace Value

def kind : Value → ValueKind
  | int _ => .int
  | float _ => .float
  | bool _ => .bool
  | text _ => .text
  | null => .null

def isNull : Value → Bool
  | null => true
  | _ => false

/-- Whether a column of the type may hold the value. -/
def fits : Value → ColumnType → Bool
  | null, _ => true
  | int _, .int => true
  | float _, .float => true
  | bool _, .boolean => true
  | text _, .varchar => true
  | text _, .text => true
  | _, _ => false

/-- A value as it is shown in a result table. -/
def render : Value → String
  | int number => toString number.toInt
  | float number => number.text
  | bool truth => if truth then "true" else "false"
  | text content => content
  | null => "NULL"

end Value

/-- One row: the values of its columns in order. -/
abbrev Row := List Value

/-- Where a row is stored: the number of its page and its slot on that page. -/
structure RowId where
  page : Nat
  slot : Nat
  deriving DecidableEq, Repr

def RowId.text (id : RowId) : String := s!"({id.page}, {id.slot})"

end RowStore
