import RowStore.Disk.Basic
import RowStore.Number.Word
import RowStore.Schema.Validity

/-!
Why a catalog cannot be read or changed.
-/

namespace RowStore

/-- What is wrong with a line of a catalog. -/
inductive CatalogFault where
  | tableInsideTable
  | columnOutsideTable
  | columnFields (line : String)
  | unknownType (name : String)
  | badLength (text : String) (fault : Number.WordFault)
  | endOutsideTable
  | schema (fault : SchemaFault)
  | unknownLine (line : String)
  | missingEnd (table : String)
  | listedTwice (table : String)
  deriving DecidableEq, Repr

def CatalogFault.message : CatalogFault → String
  | tableInsideTable => "TABLE before END of previous table"
  | columnOutsideTable => "COLUMN outside of a TABLE block"
  | columnFields line => s!"expected 'COLUMN name TYPE length', got '{line}'"
  | unknownType name => s!"unknown column type '{name}'"
  | badLength text fault => s!"bad length '{text}': {fault.message}"
  | endOutsideTable => "END without TABLE"
  | schema fault => s!"invalid schema: {fault.message}"
  | unknownLine line => s!"unrecognized line '{line}'"
  | missingEnd table => s!"table '{table}' is missing END"
  | listedTwice table => s!"table '{table}' listed twice"

/-- A failure of the catalog. -/
inductive CatalogError where
  | disk (fault : DiskFault)
  | notText
  | invalid (line : Nat) (fault : CatalogFault)
  | schema (fault : SchemaFault)
  | tableExists (table : String)
  | tableMissing (table : String)
  deriving DecidableEq, Repr

def CatalogError.message : CatalogError → String
  | disk _ | notText => "io error"
  | invalid line fault => s!"invalid catalog file at line {line}: {fault.message}"
  | schema fault => s!"invalid schema: {fault.message}"
  | tableExists table => s!"table already exists: {table}"
  | tableMissing table => s!"table does not exist: {table}"

end RowStore
