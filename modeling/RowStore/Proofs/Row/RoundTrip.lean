import RowStore.Bytes.Lemmas
import RowStore.Proofs.Row.Nulls
import RowStore.Proofs.Text.Utf8

/-!
A stored row reads back as the row it was, whatever follows its bytes.
-/

namespace RowStore

namespace Bytes

@[simp]
theorem word_ofWord (value : UInt32) : word (ofWord value) = value := by
  rw [word, ofWord, toNat_ofNat, Nat.mod_eq_of_lt (show value.toNat < 256 ^ 4 from value.toNat_lt),
    UInt32.ofNat_toNat]

@[simp]
theorem length_ofWord (value : UInt32) : (ofWord value).length = 4 := length_ofNat 4 value.toNat

end Bytes

@[simp]
theorem Value.length_bytes (value : Value) : value.bytes.length = value.width := by
  cases value <;> simp [Value.bytes, Value.width]

theorem Value.fits_int_iff {number : Int32} {type : ColumnType} :
    (Value.int number).fits type = true ↔ type = .int := by
  cases type <;> simp [Value.fits]

theorem Value.fits_float_iff {number : Number.Single} {type : ColumnType} :
    (Value.float number).fits type = true ↔ type = .float := by
  cases type <;> simp [Value.fits]

theorem Value.fits_bool_iff {truth : Bool} {type : ColumnType} :
    (Value.bool truth).fits type = true ↔ type = .boolean := by
  cases type <;> simp [Value.fits]

theorem Value.fits_text_iff {content : String} {type : ColumnType} :
    (Value.text content).fits type = true ↔ type = .varchar ∨ type = .text := by
  cases type <;> simp [Value.fits]

/-- A value that is no text of 2^32 bytes or more. The length of such a text is lost in four bytes. -/
def Value.Bounded (value : Value) : Prop :=
  ∀ content, value = .text content → content.utf8ByteSize < UInt32.size

theorem utf8ByteSize_replicate (count : Nat) :
    (String.ofList (List.replicate count 'x')).utf8ByteSize = count := by
  rw [String.utf8ByteSize_ofList]
  induction count with
  | zero => rfl
  | succ count ih =>
    rw [List.replicate_succ, String.utf8Len_cons, ih]
    rfl

theorem width_text (content : String) : Row.width 1 [.text content] = 9 + content.utf8ByteSize := by
  rw [Row.width, List.foldl_cons, List.foldl_nil, Value.width, ← Nat.add_assoc]
  rfl

namespace Row

variable {cursor : Cursor} {bytes rest : List UInt8}

/-- The cursor once `count` bytes are read and the given ones are unread. -/
def Cursor.behind (cursor : Cursor) (count : Nat) (rest : List UInt8) : Cursor :=
  ⟨cursor.size, cursor.offset + count, rest⟩

theorem Cursor.take_append (unread : cursor.rest = bytes ++ rest) :
    cursor.take bytes.length = .ok (bytes, cursor.behind bytes.length rest) := by
  have enough : bytes.length ≤ cursor.rest.length := by simp [unread]
  rw [Cursor.take, if_pos enough, unread, List.take_left, List.drop_left]
  rfl

theorem Cursor.takeWord_append {value : UInt32} (unread : cursor.rest = Bytes.ofWord value ++ rest) :
    cursor.takeWord = .ok (value, cursor.behind 4 rest) := by
  have taken := Cursor.take_append unread
  rw [Bytes.length_ofWord] at taken
  simp only [Cursor.takeWord, taken, bind, Except.bind, pure, Except.pure, Bytes.word_ofWord]

/-- The length of a text is read in front of it. -/
theorem Cursor.takeLength_append {content : String} (bounded : (Value.text content).Bounded)
    (unread : cursor.rest = Bytes.ofNat 4 content.utf8ByteSize ++ rest) :
    ∃ length : UInt32, length.toNat = content.utf8ByteSize ∧
      cursor.takeWord = .ok (length, cursor.behind 4 rest) := by
  have length : (UInt32.ofNat content.utf8ByteSize).toNat = content.utf8ByteSize :=
    UInt32.toNat_ofNat_of_lt' (bounded content rfl)
  refine ⟨_, length, Cursor.takeWord_append ?_⟩
  rw [Bytes.ofWord, length]
  exact unread

/-- A value that fits its column is read back from its bytes. -/
theorem Cursor.takeValue_append {column : Column} {value : Value}
    (fits : value.fits column.type = true) (present : value.isNull = false)
    (bounded : value.Bounded) (unread : cursor.rest = value.bytes ++ rest) :
    cursor.takeValue column = .ok (value, cursor.behind value.width rest) := by
  cases value with
  | int number =>
    have declared := Value.fits_int_iff.mp fits
    have taken := Cursor.takeWord_append unread
    simp [Cursor.takeValue, declared, taken, bind, Except.bind, pure, Except.pure, Value.width]
  | float number =>
    have declared := Value.fits_float_iff.mp fits
    have taken := Cursor.takeWord_append unread
    simp [Cursor.takeValue, declared, taken, bind, Except.bind, pure, Except.pure, Value.width]
  | bool truth =>
    have declared := Value.fits_bool_iff.mp fits
    have taken := Cursor.take_append unread
    simp only [Value.length_bytes, Value.width] at taken
    cases truth <;>
      simp [Cursor.takeValue, declared, taken, Value.bytes, bind, Except.bind, pure, Except.pure,
        Value.width]
  | text content =>
    rw [Value.bytes, List.append_assoc] at unread
    obtain ⟨length, size, found⟩ := Cursor.takeLength_append bounded unread
    have taken : (cursor.behind 4 (Text.Utf8.encode content ++ rest)).take length.toNat =
        .ok (Text.Utf8.encode content, cursor.behind (Value.text content).width rest) := by
      rw [size, ← Text.Utf8.length_encode, Cursor.take_append rfl]
      simp only [Cursor.behind, Value.width, Text.Utf8.length_encode, Nat.add_assoc]
    rcases Value.fits_text_iff.mp fits with declared | declared
    all_goals
      simp only [Cursor.takeValue, declared, found, taken, bind, Except.bind,
        Text.Utf8.decode?_encode, pure, Except.pure]
  | null => cases present

/-- A row that columns from a position on and a null bitmap allow for: every value fits its column, and
the bitmap marks those that are `NULL`. -/
structure Follows (nulls : NullBitmap) (index : Nat) (columns : List Column) (row : Row) : Prop where
  arity : row.length = columns.length
  fits : ∀ pair ∈ row.zip columns, pair.1.fits pair.2.type = true
  marked : ∀ offset value, row[offset]? = some value →
    nulls.contains (index + offset) = value.isNull
  bounded : ∀ value ∈ row, value.Bounded

variable {nulls : NullBitmap} {index : Nat} {column : Column} {columns : List Column} {value : Value}
  {row : Row}

theorem Follows.tail (follows : Follows nulls index (column :: columns) (value :: row)) :
    Follows nulls (index + 1) columns row := by
  constructor
  case arity => simpa using follows.arity
  case fits =>
    intro pair member
    exact follows.fits pair (by simp [member])
  case marked =>
    intro offset other found
    rw [Nat.add_assoc, Nat.add_comm 1]
    exact follows.marked (offset + 1) other found
  case bounded =>
    intro other member
    exact follows.bounded other (List.mem_cons_of_mem _ member)

/-- The first value of a row is `NULL` and takes no bytes, or is read from its bytes. -/
theorem Follows.head (follows : Follows nulls index (column :: columns) (value :: row)) :
    nulls.contains index = true ∧ value = .null ∨
      nulls.contains index = false ∧ value.isNull = false ∧ value.fits column.type = true ∧
        value.Bounded := by
  have mark : nulls.contains index = value.isNull := follows.marked 0 value rfl
  cases null : value.isNull with
  | true =>
    cases value <;> simp [Value.isNull] at null
    exact .inl ⟨mark, rfl⟩
  | false =>
    exact .inr ⟨mark.trans null, rfl, follows.fits (value, column) (by simp),
      follows.bounded value List.mem_cons_self⟩

/-- The values of a row are read back one after the other. -/
theorem decodeFrom_append (follows : Follows nulls index columns row)
    (unread : cursor.rest = row.flatMap Value.bytes ++ rest) :
    decodeFrom nulls index cursor columns = .ok row := by
  induction columns generalizing row index cursor with
  | nil =>
    obtain rfl := List.length_eq_zero_iff.mp follows.arity
    rfl
  | cons column columns ih =>
    cases row with
    | nil => simpa using follows.arity
    | cons value row =>
      rw [List.flatMap_cons, List.append_assoc] at unread
      unfold decodeFrom
      rcases follows.head with ⟨mark, rfl⟩ | ⟨mark, present, fits, bounded⟩
      · have later := ih follows.tail unread
        simp [mark, later, bind, Except.bind, pure, Except.pure]
      · have taken := Cursor.takeValue_append fits present bounded unread
        have later : decodeFrom nulls (index + 1)
            (cursor.behind value.width (row.flatMap Value.bytes ++ rest)) columns = .ok row :=
          ih follows.tail rfl
        simp [mark, taken, later, bind, Except.bind, pure, Except.pure]

theorem check_eq_ok_iff (schema : Schema) (row : Row) :
    check schema row = .ok () ↔ row.length = schema.columns.length ∧
      ∀ pair ∈ row.zip schema.columns, pair.1.fits pair.2.type = true := by
  rw [check]
  by_cases arity : row.length = schema.columns.length
  · rw [if_neg (not_not.mpr arity)]
    split
    · rename_i value column found
      have member := List.mem_of_find?_eq_some found
      have misfit := List.find?_some found
      simp only [reduceCtorEq, false_iff, not_and, not_forall]
      intro _
      exact ⟨_, member, by simpa using misfit⟩
    · rename_i found
      have fits := List.find?_eq_none.mp found
      simpa [arity] using fits
  · simp [arity]

theorem encode_eq_ok_iff (schema : Schema) (row : Row) (bytes : List UInt8) :
    row.encode schema = .ok bytes ↔ check schema row = .ok () ∧
      bytes = (row.header schema.columns.length).bytes ++ row.flatMap Value.bytes := by
  rw [encode]
  cases check schema row with
  | error mismatch => simp [bind, Except.bind]
  | ok _ => simp [bind, Except.bind, pure, Except.pure, eq_comm]

@[simp]
theorem length_header_bytes (columns : Nat) (row : Row) :
    (row.header columns).bytes.length = RowHeader.width columns := by
  simp [header, RowHeader.bytes, RowHeader.width]

theorem width_eq (columns : Nat) (row : Row) :
    row.width columns = RowHeader.width columns + (row.flatMap Value.bytes).length := by
  have summed (size : Nat) : row.foldl (fun size value => size + value.width) size =
      size + (row.flatMap Value.bytes).length := by
    induction row generalizing size with
    | nil => rfl
    | cons value row ih =>
      rw [List.foldl_cons, ih, List.flatMap_cons, List.length_append, Value.length_bytes,
        Nat.add_assoc]
  exact summed _

/-- A row is stored in as many bytes as its size says. -/
theorem length_of_encode {schema : Schema} {row : Row} {bytes : List UInt8}
    (encoded : row.encode schema = .ok bytes) :
    bytes.length = row.width schema.columns.length := by
  rw [((encode_eq_ok_iff _ _ _).mp encoded).2, List.length_append, length_header_bytes, width_eq]

theorem read_header_append (columns : Nat) (row : Row) (rest : List UInt8) :
    RowHeader.read columns ((row.header columns).bytes ++ rest) = .ok (row.header columns) := by
  have nulls : (row.header columns).nulls.bytes.length = NullBitmap.width columns := by
    simp [header]
  have columns_eq : (row.header columns).nulls.columns = columns := by simp [header]
  have enough : ¬ ((row.header columns).bytes ++ rest).length < RowHeader.width columns := by
    rw [List.length_append, length_header_bytes]
    omega
  rw [RowHeader.read, if_neg enough, RowHeader.bytes, List.append_assoc]
  have word := Bytes.length_ofWord (row.header columns).size
  rw [← word, List.take_left, List.drop_left, ← nulls, List.take_left, Bytes.word_ofWord]
  cases header : row.header columns with
  | mk size bitmap =>
    rw [header] at columns_eq
    subst columns_eq
    rfl

theorem follows_of_encode {schema : Schema} {row : Row} {bytes : List UInt8}
    (encoded : row.encode schema = .ok bytes) (bounded : ∀ value ∈ row, value.Bounded) :
    Follows (row.header schema.columns.length).nulls 0 schema.columns row := by
  obtain ⟨accepted, _⟩ := (encode_eq_ok_iff _ _ _).mp encoded
  obtain ⟨arity, fits⟩ := (check_eq_ok_iff _ _).mp accepted
  refine ⟨arity, fits, ?_, bounded⟩
  intro offset value found
  rw [Nat.zero_add]
  exact contains_nullColumns row _ offset value arity found

/-- Behind the head of a row its values are read. -/
theorem decode_header_append {schema : Schema} {row : Row} (rest : List UInt8) :
    decode schema ((row.header schema.columns.length).bytes ++ rest) =
      decodeFrom (row.header schema.columns.length).nulls 0
        ⟨RowHeader.width schema.columns.length + rest.length, RowHeader.width schema.columns.length,
          rest⟩ schema.columns := by
  have head := length_header_bytes schema.columns.length row
  have behind : ((row.header schema.columns.length).bytes ++ rest).drop
      (RowHeader.width schema.columns.length) = rest := by
    rw [← head, List.drop_left]
  unfold decode
  simp only [read_header_append, bind, Except.bind, behind, List.length_append, head]

/-- A stored row is read back, whatever follows it, unless it has a text that is too long. -/
theorem decode_append_of_bounded {schema : Schema} {row : Row} {bytes : List UInt8}
    (encoded : row.encode schema = .ok bytes) (bounded : ∀ value ∈ row, value.Bounded)
    (rest : List UInt8) : decode schema (bytes ++ rest) = .ok row := by
  have follows := follows_of_encode encoded bounded
  obtain ⟨_, rfl⟩ := (encode_eq_ok_iff _ _ _).mp encoded
  rw [List.append_assoc, decode_header_append]
  exact decodeFrom_append follows rfl

/-- No text is too long in a row of fewer than 2^32 bytes. -/
theorem bounded_of_encode {schema : Schema} {row : Row} {bytes : List UInt8}
    (encoded : row.encode schema = .ok bytes) (small : bytes.length < UInt32.size) :
    ∀ value ∈ row, value.Bounded := by
  obtain ⟨_, rfl⟩ := (encode_eq_ok_iff _ _ _).mp encoded
  rintro _ member content rfl
  have within : (Value.text content).bytes.length ≤ (row.flatMap Value.bytes).length :=
    (List.sublist_flatten_of_mem (List.mem_map_of_mem member)).length_le
  rw [Value.length_bytes, Value.width] at within
  rw [List.length_append] at small
  omega

/-- A stored row is read back, whatever follows it. -/
theorem decode_append_of_encode {schema : Schema} {row : Row} {bytes : List UInt8}
    (encoded : row.encode schema = .ok bytes) (small : bytes.length < UInt32.size)
    (rest : List UInt8) : decode schema (bytes ++ rest) = .ok row :=
  decode_append_of_bounded encoded (bounded_of_encode encoded small) rest

/-- The first four bytes of a stored row give its size. -/
theorem toNat_take_of_encode {schema : Schema} {row : Row} {bytes : List UInt8}
    (encoded : row.encode schema = .ok bytes)
    (small : row.width schema.columns.length < UInt32.size) :
    Bytes.toNat (bytes.take 4) = row.width schema.columns.length := by
  obtain ⟨_, rfl⟩ := (encode_eq_ok_iff _ _ _).mp encoded
  have head_eq : ((row.header schema.columns.length).bytes ++ row.flatMap Value.bytes).take 4 =
      Bytes.ofWord (row.header schema.columns.length).size := by
    rw [RowHeader.bytes, List.append_assoc, ← Bytes.length_ofWord, List.take_left]
  rw [head_eq, Bytes.ofWord, Bytes.toNat_ofNat, header, UInt32.toNat_ofNat_of_lt' small,
    Nat.mod_eq_of_lt (show row.width schema.columns.length < 256 ^ 4 from small)]

/-- A row of a schema, with any of its values `NULL`, is stored in as many bytes as its size says, gives
that size in its first four bytes, and is read back whatever follows it. -/
theorem stored_row_reads_back {schema : Schema} {row : Row} {bytes : List UInt8}
    (encoded : row.encode schema = .ok bytes)
    (small : row.width schema.columns.length < UInt32.size) :
    bytes.length = row.width schema.columns.length ∧ Bytes.toNat (bytes.take 4) = bytes.length ∧
      ∀ rest, decode schema (bytes ++ rest) = .ok row := by
  have length_eq := length_of_encode encoded
  refine ⟨length_eq, ?_, fun rest => decode_append_of_encode encoded (length_eq ▸ small) rest⟩
  rw [toNat_take_of_encode encoded small, length_eq]

/-- Nine columns, so that the null bitmap takes two bytes, with a text outside of ASCII, a number that
is none and a `NULL` in each byte of the bitmap. -/
theorem stored_row_reads_back_nine_columns :
    let schema : Schema := ⟨"t", [.ofType "a" .int, .ofType "b" .text, .ofType "c" .float,
      .ofType "d" .boolean, .ofType "e" .varchar, .ofType "f" .int, .ofType "g" .boolean,
      .ofType "h" .text, .ofType "i" .int]⟩
    let row : Row := [.int (-7), .text "häß", .float ⟨0x7FC00001⟩, .bool true, .null, .int 0,
      .bool false, .text "", .null]
    ∃ bytes, row.encode schema = .ok bytes ∧ row.width schema.columns.length < UInt32.size ∧
      bytes.length = row.width schema.columns.length ∧ Bytes.toNat (bytes.take 4) = bytes.length ∧
      ∀ rest, decode schema (bytes ++ rest) = .ok row := by
  intro schema row
  have encoded : row.encode schema =
      .ok ((row.header schema.columns.length).bytes ++ row.flatMap Value.bytes) := rfl
  have small : row.width schema.columns.length < UInt32.size := by decide
  exact ⟨_, encoded, small, stored_row_reads_back encoded small⟩

end Row

end RowStore
