import RowStore.Catalog.Text
import RowStore.Disk.Files

/-!
The catalog: the schemas of all tables by their folded names, and the text file that holds them.
The file follows every change as far as the disk lets it; a change counts even if it cannot be
written.
-/

namespace RowStore

/-- The schemas of the tables, and the path of the file that holds them. -/
structure Catalog where
  path : Option String
  tables : Std.TreeMap String Schema

namespace Catalog

/-- A catalog without tables and without a file. -/
def inMemory : Catalog := ⟨none, {}⟩

/-- The schema of a table. -/
def get? (catalog : Catalog) (table : String) : Option Schema := catalog.tables[Text.fold table]?

def contains (catalog : Catalog) (table : String) : Bool := catalog.tables.contains (Text.fold table)

/-- All schemas in the order of their folded names. -/
def schemas (catalog : Catalog) : List Schema := catalog.tables.toList.map (·.2)

def size (catalog : Catalog) : Nat := catalog.tables.size

/-- Enters schemas one after another. No two may have the same folded name. -/
def enter (tables : Std.TreeMap String Schema) :
    List Schema → Except CatalogError (Std.TreeMap String Schema)
  | [] => .ok tables
  | schema :: rest =>
    if tables.contains (Text.fold schema.table) then
      .error (.invalid 0 (.listedTwice schema.table))
    else enter (tables.insert (Text.fold schema.table) schema) rest

/-- The schemas in the file at a path; no file is an empty catalog. -/
def load (disk : Disk) (path : String) : Except CatalogError (List Schema) := do
  if !disk.hasEntry path then return []
  let bytes ← (disk.readFile path).mapError .disk
  match Text.Utf8.decode? bytes with
  | some text => CatalogText.parse text
  | none => throw .notText

/-- The catalog in the file at a path. -/
def openAt (disk : Disk) (path : Option String) : Except CatalogError Catalog := do
  match path with
  | none => return inMemory
  | some file => return ⟨path, ← enter {} (← load disk file)⟩

/-- Writes the catalog to its file, if it has one and the disk takes it. -/
def persist : Step (Catalog × Disk) CatalogError Unit := do
  let (catalog, disk) ← get
  if let some path := catalog.path then
    let text := CatalogText.render catalog.schemas
    set (catalog, ((Disk.replaceFile path (Text.Utf8.encode text)).runOn disk).2)

/-- Enters a new table. -/
def create (schema : Schema) : Step (Catalog × Disk) CatalogError Unit := do
  Step.ofExcept (schema.check.mapError .schema)
  let (catalog, disk) ← get
  if catalog.contains schema.table then throw (.tableExists schema.table)
  set ({ catalog with tables := catalog.tables.insert (Text.fold schema.table) schema }, disk)
  persist

/-- Removes a table and answers its schema. -/
def drop (table : String) : Step (Catalog × Disk) CatalogError Schema := do
  let (catalog, disk) ← get
  match catalog.get? table with
  | none => throw (.tableMissing table)
  | some schema =>
    set ({ catalog with tables := catalog.tables.erase (Text.fold table) }, disk)
    persist
    return schema

end Catalog

end RowStore
