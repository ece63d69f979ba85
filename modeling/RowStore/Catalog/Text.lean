import RowStore.Catalog.Error

/-!
Catalogs as text. A table is a line `TABLE` with its name, a line `COLUMN` with name, type and
length for each of its columns, and a line `END`. Blank lines, and blanks around a line, do not
count.
-/

namespace RowStore.CatalogText

/-- A column as a line. -/
def columnLine (column : Column) : String :=
  s!"COLUMN {column.name} {column.type.name} {column.length.toNat}\n"

/-- A schema as the lines of its block. -/
def block (schema : Schema) : String :=
  s!"TABLE {schema.table}\n" ++ String.join (schema.columns.map columnLine) ++ "END\n"

/-- The text of a catalog with the given tables. -/
def render (tables : List Schema) : String := String.join (tables.map block)

/-- The tables read so far, the last one first, and the table whose block is open. -/
structure Reading where
  tables : List Schema
  current : Option Schema

/-- What follows a word and a space at the start of a line. -/
def after? (word : String) (line : List Char) : Option (List Char) :=
  let start := word.toList ++ [' ']
  if start.isPrefixOf line then some (line.drop start.length) else none

/-- The column that the words behind `COLUMN` declare on a line. -/
def readColumn (line rest : List Char) : Except CatalogFault Column :=
  match Text.words rest with
  | [name, type, length] =>
    match ColumnType.ofName? (String.ofList type) with
    | none => .error (.unknownType (String.ofList type))
    | some type =>
      match Number.readWord length with
      | .error fault => .error (.badLength (String.ofList length) fault)
      | .ok length => .ok ⟨String.ofList name, type, length⟩
  | _ => .error (.columnFields (String.ofList line))

/-- Reads one line, which has no blanks at its ends. A schema is checked at its `END`. -/
def readLine (reading : Reading) (line : List Char) : Except CatalogFault Reading :=
  if line.isEmpty then .ok reading
  else
    match after? "TABLE" line, after? "COLUMN" line with
    | some name, _ =>
      match reading.current with
      | some _ => .error .tableInsideTable
      | none => .ok { reading with current := some ⟨String.ofList (Text.trim name), []⟩ }
    | none, some rest =>
      match reading.current with
      | none => .error .columnOutsideTable
      | some schema => do
        let column ← readColumn line rest
        return { reading with
          current := some { schema with columns := schema.columns ++ [column] } }
    | none, none =>
      if line = "END".toList then
        match reading.current with
        | none => .error .endOutsideTable
        | some schema => do
          schema.check.mapError .schema
          return ⟨schema :: reading.tables, none⟩
      else .error (.unknownLine (String.ofList line))

/-- Reads lines, the first of them having the given number. -/
def readLines (reading : Reading) (number : Nat) : List (List Char) → Except CatalogError Reading
  | [] => .ok reading
  | line :: rest => do
    let reading ← (readLine reading (Text.trim line)).mapError (.invalid number)
    readLines reading (number + 1) rest

/-- The tables of a catalog text in order. -/
def parse (text : String) : Except CatalogError (List Schema) := do
  let lines := Text.lines text.toList
  let reading ← readLines ⟨[], none⟩ 1 lines
  match reading.current with
  | some schema => throw (.invalid lines.length (.missingEnd schema.table))
  | none => return reading.tables.reverse

end RowStore.CatalogText
