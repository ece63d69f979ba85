import RowStore.Schema.Basic

/-!
Results as text: rows as a table with one column of text for each column of the schema, and the
number of rows that a statement has touched. A column is as wide as its widest cell, in characters,
and one that is too wide cannot be shown.
-/

namespace RowStore.Report

/-- `1 row`, and otherwise the number with `rows`. -/
def rowCount (count : Nat) : String := toString count ++ (if count = 1 then " row" else " rows")

/-- What a statement has done with how many rows. -/
def countMessage (verb : String) (count : Nat) : String := verb ++ " " ++ rowCount count ++ "."

/-- A cell filled up with spaces. -/
def pad (width : Nat) (cell : String) : String := cell.pushn ' ' (width - cell.length)

/-- The cells of a row in a table with the given number of columns. -/
def cells (columns : Nat) (row : Row) : List String :=
  (List.range columns).map fun column => (row[column]?.getD .null).render

/-- The width of each column: that of its header and its cells at least. -/
def widths (headers : List String) (rows : List (List String)) : List Nat :=
  rows.foldl (fun widths row => widths.zipWith (fun width cell => max width cell.length) row)
    (headers.map String.length)

/-- One line of cells. -/
def line (widths : List Nat) (cells : List String) : String :=
  " " ++ " | ".intercalate (widths.zipWith pad cells) ++ "\n"

/-- The line below the headers. -/
def separator (widths : List Nat) : String :=
  "-" ++ "-+-".intercalate (widths.map fun width => "".pushn '-' width) ++ "\n"

/-- Rows as a table. -/
def table (schema : Schema) (rows : List Row) : String :=
  if rows.isEmpty then "(0 rows)"
  else
    let headers := schema.columns.map Column.name
    let rendered := rows.map (cells headers.length)
    let widths := widths headers rendered
    line widths headers ++ separator widths ++ String.join (rendered.map (line widths)) ++
      "(" ++ rowCount rows.length ++ ")"

/-- The greatest width up to which a cell can be filled with spaces. -/
def greatestWidth : Nat := 65535

/-- Rows as a table, if each column can be filled up to its width. Without rows there is nothing to
fill. -/
def table? (schema : Schema) (rows : List Row) : Option String :=
  let headers := schema.columns.map Column.name
  if rows.isEmpty || (widths headers (rows.map (cells headers.length))).all (· ≤ greatestWidth) then
    some (table schema rows)
  else none

end RowStore.Report
