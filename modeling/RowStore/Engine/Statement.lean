import RowStore.Engine.Select
import RowStore.Report

/-!
Statements. An update or a deletion checks all it can before the first page changes, so that it fails
half-way only where the disk does. An insertion checks the values of all rows first, but the size of
a row only as it is stored.
-/

namespace RowStore

/-- The length of a `VARCHAR` that is declared without one, or with one that is not positive. -/
def defaultLength : UInt32 := 255

/-- The length that a `VARCHAR` keeps. -/
def declaredLength (length : Option Int) : UInt32 :=
  match length with
  | some length => if 0 < length then UInt32.ofNat (min length.toNat (UInt32.size - 1)) else defaultLength
  | none => defaultLength

/-- The column that a declaration stands for. Its type is a word in any case. -/
def ColumnSpec.column (spec : ColumnSpec) : Except EngineError Column :=
  match Text.fold spec.typeName with
  | "INT" | "INTEGER" => .ok (.ofType spec.name .int)
  | "FLOAT" | "REAL" => .ok (.ofType spec.name .float)
  | "TEXT" => .ok (.ofType spec.name .text)
  | "BOOLEAN" | "BOOL" => .ok (.ofType spec.name .boolean)
  | "VARCHAR" => .ok ⟨spec.name, .varchar, declaredLength spec.length⟩
  | typeName => .error (.unsupported (.columnType typeName spec.name))

/-- The literal that an expression is. -/
def Expr.asLiteral : Expr → Except EngineError Literal
  | .literal value => .ok value
  | expr => .error (.unsupported (.literalExpected expr))

/-- The value that an expression gives a column. -/
def Expr.storedIn (expr : Expr) (column : Column) : Except EngineError Value := do
  let literal ← expr.asLiteral
  (literal.store column).mapError .eval

/-- The table that an update or a deletion is about: one without another name. -/
def Source.targetTable : Source → Except EngineError String
  | .table name none => .ok name
  | _ => .error (.unsupported .target)

/-- The row that expressions give, one for each column. -/
def buildRow (schema : Schema) (exprs : List Expr) : Except EngineError Row := do
  if exprs.length ≠ schema.columns.length then
    throw (.storage (.mismatch (.arity schema.table schema.columns.length exprs.length)))
  (exprs.zip schema.columns).mapM fun (expr, column) => expr.storedIn column

/-- The columns that an update sets, each with its value. -/
def assignments (schema : Schema) (columns : List String) (values : List Expr) :
    Except EngineError (List (Nat × Value)) := do
  if columns.length ≠ values.length then
    throw (.schema s!"{columns.length} target columns but {values.length} values")
  (columns.zip values).mapM fun (name, expr) => do
    let position ← (schema.resolve name).mapError fun error => .eval (.lookup error)
    match schema.columns[position]? with
    | some column => return (position, ← expr.storedIn column)
    | none => throw (.eval (.columnOutsideRow position))

/-- A row with columns set, of two assignments to one column the later. -/
def assign (row : Row) (assignments : List (Nat × Value)) : Row :=
  assignments.foldl (fun row (position, value) => row.set position value) row

namespace Engine

/-- A change to the database with an answer to show. -/
abbrev Effect (Answer : Type) : Type := Step (Engine × Disk) EngineError Answer

/-- A step on the heap of a table. -/
def onHeap {Answer : Type} (table : String) (step : Step (HeapFile × Disk) StorageError Answer) :
    Effect Answer :=
  onHeaps (HeapRegistry.onHeap table step)

/-- Creates a table: first its catalog entry, then its heap file. Where there can be no heap file
the entry is taken back. -/
def createTable (table : String) (specs : List ColumnSpec) : Effect String := do
  let engine := (← get).1
  if engine.catalog.contains table then throw (.catalog (.tableExists table))
  let schema : Schema := ⟨table, ← Step.ofExcept (specs.mapM ColumnSpec.column)⟩
  onCatalog (Catalog.create schema)
  let (result, state) := (onHeaps (HeapRegistry.create schema)).runOn (← get)
  match result with
  | .ok _ => set state
  | .error error =>
    set ((onCatalog (Catalog.drop table)).runOn state).2
    throw error
  return s!"Table '{table}' created."

/-- Drops a table: first its heap file, then its catalog entry. -/
def dropTable (table : String) : Effect String := do
  let engine := (← get).1
  if !engine.catalog.contains table then throw (.catalog (.tableMissing table))
  onHeaps (HeapRegistry.drop table)
  let _ ← onCatalog (Catalog.drop table)
  return s!"Table '{table}' dropped."

/-- Stores rows. The values of all of them are checked before the first is stored; a row too large for
a page fails after those before it are stored. -/
def insert (table : String) (rows : List (List Expr)) : Effect String := do
  let (schema, _) ← Step.ofExcept ((← get).1.handle table)
  let rows ← Step.ofExcept (rows.mapM (buildRow schema))
  onHeap table (rows.forM fun row => discard (HeapFile.insert row))
  return Report.countMessage "Inserted" rows.length

/-- The rows of a table that meet a condition, with their addresses. -/
def candidates (engine : Engine) (schema : Schema) (heap : HeapFile) (condition : Option Expr) :
    Except EngineError (List (RowId × Row)) := do
  let predicate ← engine.compileWhere schema condition
  heap.scanWhere .storage fun row => (predicate.test row).mapError .eval

/-- Deletes the rows that meet a condition. -/
def delete (target : Source) (condition : Option Expr) : Effect String := do
  let engine := (← get).1
  let table ← Step.ofExcept target.targetTable
  let (schema, heap) ← Step.ofExcept (engine.handle table)
  let found ← Step.ofExcept (engine.candidates schema heap condition)
  let deleted ← onHeap table (found.mapM fun (id, _) => HeapFile.delete id)
  return Report.countMessage "Deleted" (deleted.count true)

/-- A row with columns set, if the heap takes it. -/
def revise (heap : HeapFile) (assignments : List (Nat × Value)) (id : RowId) (row : Row) :
    Except EngineError (RowId × Row) := do
  let row := assign row assignments
  (heap.checkInsertable row).mapError .storage
  return (id, row)

/-- Sets columns of the rows that meet a condition. Every new row is checked before the first is
stored, and an updated row lies at a new address. -/
def update (target : Source) (columns : List String) (values : List Expr) (condition : Option Expr) :
    Effect String := do
  let engine := (← get).1
  let table ← Step.ofExcept target.targetTable
  let (schema, heap) ← Step.ofExcept (engine.handle table)
  let assignments ← Step.ofExcept (assignments schema columns values)
  let found ← Step.ofExcept (engine.candidates schema heap condition)
  let revisions ← Step.ofExcept (found.mapM fun (id, row) => revise heap assignments id row)
  onHeap table (revisions.forM fun (id, row) => do
    discard (HeapFile.delete id)
    discard (HeapFile.insert row))
  return Report.countMessage "Updated" revisions.length

/-- The answer of a query as a table. -/
def select (engine : Engine) (query : Select) : Except EngineError String := do
  let relation ← engine.run query
  return Report.table relation.schema relation.rows

/-- Runs a statement and answers what it shows. -/
def execute : Statement → Effect String
  | .createTable table columns => createTable table columns
  | .dropTable table => dropTable table
  | .insert table rows => insert table rows
  | .select query => do Step.ofExcept ((← get).1.select query)
  | .update target columns values condition => update target columns values condition
  | .delete target condition => delete target condition
  | .other kind => throw (.unsupported (.statement kind))

end Engine

end RowStore
