import RowStore.Heap.Scan
import RowStore.Proofs.Outcome
import RowStore.Proofs.Row.RoundTrip

/-!
Rows that follow a schema: a value for every column, each of the type of its column. Whatever bytes are
read as a row of a schema, the row follows it, and the bytes are a head and those of its values.
-/

namespace RowStore

/-- A row with a value for every column, each of which fits its column. -/
def Schema.Admits (schema : Schema) (row : Row) : Prop :=
  List.Forall₂ (fun value column => value.fits column.type = true) row schema.columns

theorem Schema.Admits.length_eq {schema : Schema} {row : Row} (admits : schema.Admits row) :
    row.length = schema.columns.length := List.Forall₂.length_eq admits

theorem Row.check_eq_ok_iff_admits (schema : Schema) (row : Row) :
    Row.check schema row = .ok () ↔ schema.Admits row := by
  rw [Row.check_eq_ok_iff, Schema.Admits, List.forall₂_iff_zip, Prod.forall]

theorem Bytes.ofWord_word {bytes : List UInt8} (four : bytes.length = 4) :
    ofWord (word bytes) = bytes := by
  have bounded := toNat_lt bytes
  rw [four] at bounded
  rw [ofWord, word, UInt32.toNat_ofNat_of_lt' bounded, ← four, ofNat_toNat]

/-- Bytes that are read as a value: its own, or any byte but zero in place of what is true. -/
inductive Value.ReadFrom : Value → List UInt8 → Prop where
  | bytes (value : Value) : ReadFrom value value.bytes
  | truth (byte : UInt8) (nonzero : byte ≠ 0) : ReadFrom (.bool true) [byte]

theorem Value.ReadFrom.length_eq {value : Value} {bytes : List UInt8} (read : value.ReadFrom bytes) :
    bytes.length = value.bytes.length := by
  cases read <;> rfl

namespace Row

variable {cursor next : Cursor} {column : Column} {columns : List Column} {value : Value} {row : Row}
  {bytes : List UInt8} {schema : Schema}

theorem Cursor.take_eq_ok {count : Nat} (taken : cursor.take count = .ok (bytes, next)) :
    bytes.length = count ∧ cursor.rest = bytes ++ next.rest := by
  unfold take at taken
  split at taken
  · rename_i enough
    cases taken
    exact ⟨List.length_take_of_le enough, (List.take_append_drop _ _).symm⟩
  · cases taken

theorem Cursor.takeWord_eq_ok {word : UInt32} (taken : cursor.takeWord = .ok (word, next)) :
    cursor.rest = Bytes.ofWord word ++ next.rest := by
  obtain ⟨⟨bytes, behind⟩, found, done⟩ := Outcome.bind_eq_ok_iff.mp taken
  cases done
  obtain ⟨four, split⟩ := take_eq_ok found
  rw [Bytes.ofWord_word four]
  exact split

/-- A value that is read fits its column and is not `NULL`, and stands in front of what is unread after
it. -/
theorem Cursor.takeValue_eq_ok (taken : cursor.takeValue column = .ok (value, next)) :
    value.fits column.type = true ∧ value.isNull = false ∧ value.Bounded ∧
      ∃ bytes, value.ReadFrom bytes ∧ cursor.rest = bytes ++ next.rest := by
  unfold takeValue at taken
  split at taken
  case h_1 declared =>
    obtain ⟨⟨word, behind⟩, found, done⟩ := Outcome.bind_eq_ok_iff.mp taken
    cases done
    refine ⟨Value.fits_int_iff.mpr declared, rfl, by simp [Value.Bounded], _, .bytes _, ?_⟩
    simpa [Value.bytes] using takeWord_eq_ok found
  case h_2 declared =>
    obtain ⟨⟨word, behind⟩, found, done⟩ := Outcome.bind_eq_ok_iff.mp taken
    cases done
    exact ⟨Value.fits_float_iff.mpr declared, rfl, by simp [Value.Bounded], _, .bytes _,
      takeWord_eq_ok found⟩
  case h_3 declared =>
    obtain ⟨⟨bytes, behind⟩, found, done⟩ := Outcome.bind_eq_ok_iff.mp taken
    cases done
    obtain ⟨one, split⟩ := take_eq_ok found
    obtain ⟨byte, rfl⟩ := List.length_eq_one_iff.mp one
    refine ⟨Value.fits_bool_iff.mpr declared, rfl, by simp [Value.Bounded], [byte], ?_, split⟩
    by_cases zero : byte = 0
    · subst zero
      exact .bytes (.bool false)
    · have nonzero : ([byte] != [0]) = true := by simpa using zero
      rw [nonzero]
      exact .truth byte zero
  case h_4 declared | h_5 declared =>
    -- a text is read behind its length, and only if its bytes spell one
    obtain ⟨⟨word, behind⟩, length, later⟩ := Outcome.bind_eq_ok_iff.mp taken
    obtain ⟨⟨bytes, last⟩, found, read⟩ := Outcome.bind_eq_ok_iff.mp later
    simp only at read
    split at read
    · rename_i content spelled
      cases read
      obtain ⟨counted, split⟩ := take_eq_ok found
      have encoded := Text.Utf8.encode_of_decode? spelled
      have size : content.utf8ByteSize = word.toNat := by
        rw [← Text.Utf8.length_encode, encoded, counted]
      refine ⟨Value.fits_text_iff.mpr (by simp [declared]), rfl, ?_, _, .bytes _, ?_⟩
      · rintro other same
        cases same
        rw [size]
        exact word.toNat_lt
      · rw [takeWord_eq_ok length, split, Value.bytes, encoded, size, List.append_assoc]
        rfl
    · cases read

/-- What bytes from a position on are read as: a value for each column, those marked as `NULL` with no
bytes and the others one after the other, and what is unread after them. -/
structure Spelled (nulls : NullBitmap) (index : Nat) (columns : List Column) (row : Row)
    (parts : List (List UInt8)) (bytes unread : List UInt8) : Prop where
  fits : List.Forall₂ (fun value column => value.fits column.type = true) row columns
  split : bytes = parts.flatten ++ unread
  read : List.Forall₂ Value.ReadFrom row parts
  marked : ∀ offset value, row[offset]? = some value →
    nulls.contains (index + offset) = value.isNull
  bounded : ∀ value ∈ row, value.Bounded

variable {nulls : NullBitmap} {index : Nat} {parts : List (List UInt8)} {unread part : List UInt8}

theorem Spelled.cons (spelled : Spelled nulls (index + 1) columns row parts bytes unread)
    (fits : value.fits column.type = true) (mark : nulls.contains index = value.isNull)
    (bounded : value.Bounded) (read : value.ReadFrom part) :
    Spelled nulls index (column :: columns) (value :: row) (part :: parts) (part ++ bytes)
      unread := by
  constructor
  case fits => exact .cons fits spelled.fits
  case split => rw [spelled.split, List.flatten_cons, List.append_assoc]
  case read => exact .cons read spelled.read
  case marked =>
    intro offset other found
    cases offset with
    | zero =>
      cases found
      exact mark
    | succ offset =>
      rw [Nat.add_comm offset 1, ← Nat.add_assoc]
      exact spelled.marked offset other found
  case bounded =>
    intro other member
    rcases List.mem_cons.mp member with rfl | member
    · exact bounded
    · exact spelled.bounded other member

theorem spelled_of_decodeFrom (decoded : decodeFrom nulls index cursor columns = .ok row) :
    ∃ parts unread, Spelled nulls index columns row parts cursor.rest unread := by
  induction columns generalizing index cursor row with
  | nil =>
    cases decoded
    exact ⟨[], cursor.rest, .nil, rfl, .nil, by simp, by simp⟩
  | cons column rest ih =>
    unfold decodeFrom at decoded
    split at decoded
    · rename_i null
      obtain ⟨later, found, done⟩ := Outcome.bind_eq_ok_iff.mp decoded
      cases done
      obtain ⟨parts, unread, spelled⟩ := ih found
      exact ⟨[] :: parts, unread, spelled.cons rfl null (by simp [Value.Bounded]) (.bytes .null)⟩
    · rename_i present
      obtain ⟨⟨value, next⟩, taken, read⟩ := Outcome.bind_eq_ok_iff.mp decoded
      obtain ⟨later, found, done⟩ := Outcome.bind_eq_ok_iff.mp read
      cases done
      obtain ⟨parts, unread, spelled⟩ := ih found
      obtain ⟨fits, kept, bounded, bytes, spells, split⟩ := Cursor.takeValue_eq_ok taken
      rw [split]
      refine ⟨bytes :: parts, unread, spelled.cons fits ?_ bounded spells⟩
      rw [kept]
      simpa using present

/-- Bytes that are read as a row are a head and the values behind it. -/
theorem spelled_of_decode (decoded : decode schema bytes = .ok row) :
    RowHeader.width schema.columns.length ≤ bytes.length ∧
      ∃ parts unread, Spelled ⟨schema.columns.length,
        (bytes.drop 4).take (NullBitmap.width schema.columns.length)⟩ 0 schema.columns row parts
        (bytes.drop (RowHeader.width schema.columns.length)) unread := by
  obtain ⟨header, head, read⟩ := Outcome.bind_eq_ok_iff.mp decoded
  unfold RowHeader.read at head
  split at head
  · cases head
  · rename_i enough
    cases head
    exact ⟨Nat.le_of_not_lt enough, spelled_of_decodeFrom read⟩

theorem admits_of_decode (decoded : decode schema bytes = .ok row) : schema.Admits row := by
  obtain ⟨_, _, _, spelled⟩ := spelled_of_decode decoded
  exact spelled.fits

end Row

theorem HeapFile.admits_of_decode {heap : HeapFile} {bytes : List UInt8} {row : Row}
    (decoded : heap.decode bytes = .ok row) : heap.schema.Admits row :=
  Row.admits_of_decode (Outcome.mapError_eq_ok_iff.mp decoded)

end RowStore
