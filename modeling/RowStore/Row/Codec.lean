import RowStore.Row.Header
import RowStore.Schema.Basic

/-!
Rows as bytes: the head of the row, then the values that are not `NULL` in the order of their
columns. Numbers take four bytes, a truth value takes one, and a text is its UTF-8 bytes behind
their number. Bytes after the last value are of no account to a reader.
-/

namespace RowStore

/-- Why a row is not one of a schema. -/
inductive RowMismatch where
  | arity (table : String) (expected actual : Nat)
  | valueType (column : String) (expected : ColumnType)
  deriving DecidableEq, Repr

def RowMismatch.message : RowMismatch → String
  | arity table expected actual =>
    s!"tuple has {actual} values but schema '{table}' has {expected} columns"
  | valueType column expected =>
    s!"value for column '{column}' does not match declared type {expected.name}"

/-- The bytes of a value. -/
def Value.bytes : Value → List UInt8
  | int number => Bytes.ofWord number.toUInt32
  | float number => Bytes.ofWord number.bits
  | bool truth => [if truth then 1 else 0]
  | text content => Bytes.ofNat 4 content.utf8ByteSize ++ Text.Utf8.encode content
  | null => []

/-- The number of bytes of a value. -/
def Value.width : Value → Nat
  | int _ | float _ => 4
  | bool _ => 1
  | text content => 4 + content.utf8ByteSize
  | null => 0

namespace Row

/-- The number of bytes of a row in a table with the given number of columns. -/
def width (columns : Nat) (row : Row) : Nat := 
  row.foldl (fun size value => size + value.width) (RowHeader.width columns)

/-- Checks that a row has a value for every column, and that each fits its column. -/
def check (schema : Schema) (row : Row) : Except RowMismatch Unit :=
  if row.length ≠ schema.columns.length then
    .error (.arity schema.table schema.columns.length row.length)
  else
    match (row.zip schema.columns).find? fun (value, column) => !value.fits column.type with
    | some (_, column) => .error (.valueType column.name column.type)
    | none => .ok ()

/-- The positions of the values that are `NULL`. -/
def nullColumns (row : Row) : List Nat := (row.zipIdx.filter (·.1.isNull)).map (·.2)

/-- The head of a row. -/
def header (columns : Nat) (row : Row) : RowHeader :=
  ⟨UInt32.ofNat (row.width columns), NullBitmap.ofColumns columns row.nullColumns⟩

/-- The bytes of a row that is one of the schema. -/
def encode (schema : Schema) (row : Row) : Except RowMismatch (List UInt8) := do
  check schema row
  return (row.header schema.columns.length).bytes ++ row.flatMap Value.bytes

/-- The unread end of a stored row of `size` bytes. -/
structure Cursor where
  size : Nat
  offset : Nat
  rest : List UInt8

/-- The next bytes, and what is unread after them. -/
def Cursor.take (cursor : Cursor) (count : Nat) : Except RowFault (List UInt8 × Cursor) :=
  if count ≤ cursor.rest.length then
    .ok (cursor.rest.take count, { cursor with
      offset := cursor.offset + count, rest := cursor.rest.drop count })
  else .error (.pastEnd count cursor.offset cursor.size)

/-- The next four bytes as a word. -/
def Cursor.takeWord (cursor : Cursor) : Except RowFault (UInt32 × Cursor) := do
  let (bytes, cursor) ← cursor.take 4
  return (Bytes.word bytes, cursor)

/-- The next value, of the type of its column. Every byte but zero reads as true. -/
def Cursor.takeValue (cursor : Cursor) (column : Column) : Except RowFault (Value × Cursor) :=
  match column.type with
  | .int => do
    let (word, cursor) ← cursor.takeWord
    return (.int word.toInt32, cursor)
  | .float => do
    let (word, cursor) ← cursor.takeWord
    return (.float ⟨word⟩, cursor)
  | .boolean => do
    let (bytes, cursor) ← cursor.take 1
    return (.bool (bytes != [0]), cursor)
  | .varchar | .text => do
    let (length, cursor) ← cursor.takeWord
    let (bytes, cursor) ← cursor.take length.toNat
    match Text.Utf8.decode? bytes with
    | some content => return (.text content, cursor)
    | none => throw (.badText column.name ((Text.Utf8.fault? bytes).getD ⟨0, none⟩))

/-- The values of the columns from position `index` on. -/
def decodeFrom (nulls : NullBitmap) (index : Nat) (cursor : Cursor) :
    List Column → Except RowFault Row
  | [] => .ok []
  | column :: rest =>
    if nulls.contains index then do
      return .null :: (← decodeFrom nulls (index + 1) cursor rest)
    else do
      let (value, cursor) ← cursor.takeValue column
      return value :: (← decodeFrom nulls (index + 1) cursor rest)

/-- The row of a schema that bytes spell. -/
def decode (schema : Schema) (bytes : List UInt8) : Except RowFault Row := do
  let columns := schema.columns.length
  let header ← RowHeader.read columns bytes
  let start := RowHeader.width columns
  decodeFrom header.nulls 0 ⟨bytes.length, start, bytes.drop start⟩ schema.columns

end Row

end RowStore
