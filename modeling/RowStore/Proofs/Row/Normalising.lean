import RowStore.Proofs.Row.Shape

/-!
Rows that are stored again. Whatever bytes are read as a row, the row is stored in no more bytes than were
read, and in the same ones but for those that a reader does not rely on: the size at the front, the unused
bits of the null bitmap, and the byte of what is true.
-/

namespace RowStore

namespace Row

variable {value : Value} {row : Row} {bytes : List UInt8} {parts : List (List UInt8)}
  {nulls : NullBitmap} {schema : Schema}

/-- Why a byte of a row that is stored again may be another than the one that was read in its place. -/
inductive Unheeded (columns : Nat) (row : Row) (read again : List UInt8) (position : Nat) : Prop where
  /-- It is one of the four bytes of the size. -/
  | size (front : position < 4)
  /-- It is the last byte of the null bitmap, and the bits of columns are the same. -/
  | padding (last : position + 1 = RowHeader.width columns)
      (used : ∀ bit, bit < 8 → (position - 4) * 8 + bit < columns →
        (again.getD position 0).toNat.testBit bit = (read.getD position 0).toNat.testBit bit)
  /-- It is the byte of a truth value, and was read as true without being the byte of true. -/
  | truth (column : Nat) (byte : UInt8) (value : row[column]? = some (.bool true))
      (place : position = Row.width columns (row.take column)) (found : read[position]? = some byte)
      (other : byte ≠ 0 ∧ byte ≠ 1)

theorem length_flatten_of_readFrom (read : List.Forall₂ Value.ReadFrom row parts) :
    parts.flatten.length = (row.flatMap Value.bytes).length := by
  induction read with
  | nil => rfl
  | cons first _ ih =>
    rw [List.flatten_cons, List.flatMap_cons, List.length_append, List.length_append, ih,
      first.length_eq]

/-- The values of a row that are stored again differ from those that were read in bytes of truth values
only. -/
theorem getElem?_flatMap_of_readFrom (read : List.Forall₂ Value.ReadFrom row parts) (position : Nat) :
    (row.flatMap Value.bytes)[position]? = parts.flatten[position]? ∨
      ∃ column byte, row[column]? = some (.bool true) ∧
        position = ((row.take column).flatMap Value.bytes).length ∧
        parts.flatten[position]? = some byte ∧ byte ≠ 0 ∧ byte ≠ 1 := by
  induction read generalizing position with
  | nil => exact .inl rfl
  | @cons value part row parts first _ ih =>
    have same := first.length_eq
    rw [List.flatMap_cons, List.flatten_cons]
    by_cases inside : position < part.length
    · rw [List.getElem?_append_left inside, List.getElem?_append_left (same ▸ inside)]
      cases first with
      | bytes => exact .inl rfl
      | truth byte nonzero =>
        obtain rfl : position = 0 := Nat.lt_one_iff.mp inside
        by_cases one : byte = 1
        · exact .inl (by rw [one]; rfl)
        · exact .inr ⟨0, byte, rfl, rfl, rfl, nonzero, one⟩
    · have behind := Nat.le_of_not_lt inside
      rw [List.getElem?_append_right behind, List.getElem?_append_right (same ▸ behind), ← same]
      rcases ih (position - part.length) with agree | ⟨column, byte, present, place, found, other⟩
      · exact .inl agree
      · refine .inr ⟨column + 1, byte, present, ?_, found, other⟩
        rw [List.take_succ_cons, List.flatMap_cons, List.length_append, ← place, ← same]
        omega

/-- The null bitmap of a row that is stored again differs from the one that was read in unused bits of its
last byte only. -/
theorem agrees_nulls {nulls : NullBitmap} {offset : Nat} (inside : offset < nulls.bytes.length)
    (width : nulls.bytes.length = NullBitmap.width row.length)
    (marked : ∀ column value, row[column]? = some value → nulls.contains column = value.isNull) :
    let again := (NullBitmap.ofColumns row.length row.nullColumns).bytes
    again[offset]? = nulls.bytes[offset]? ∨ offset + 1 = NullBitmap.width row.length ∧
      ∀ bit, bit < 8 → offset * 8 + bit < row.length →
        (again.getD offset 0).toNat.testBit bit = (nulls.bytes.getD offset 0).toNat.testBit bit := by
  intro again
  have same : ∀ column, column < row.length →
      (NullBitmap.ofColumns row.length row.nullColumns).contains column = nulls.contains column := by
    intro column among
    have found := List.getElem?_eq_getElem among
    rw [contains_nullColumns row _ column _ rfl found, marked column _ found]
  have bits (bit : Nat) (small : bit < 8) (used : offset * 8 + bit < row.length) :=
    NullBitmap.testBit_of_contains same small used
  by_cases last : offset + 1 = NullBitmap.width row.length
  · exact .inr ⟨last, bits⟩
  · -- all eight bits of a byte before the last one are of columns
    have before : offset * 8 + 8 ≤ row.length := by
      unfold NullBitmap.width at width last
      omega
    have within : offset < again.length := by
      rw [NullBitmap.length_bytes_ofColumns, ← width]
      exact inside
    refine .inl ?_
    rw [List.getElem?_eq_getElem inside, List.getElem?_eq_getElem within, Option.some.injEq]
    apply NullBitmap.eq_of_testBit
    intro bit small
    have agree := bits bit small (by omega)
    rwa [List.getD_eq_getElem _ _ within, List.getD_eq_getElem _ _ inside] at agree

theorem agrees_marks (decoded : decode schema bytes = .ok row) {offset : Nat}
    (inside : offset < NullBitmap.width row.length) :
    let again := (row.header row.length).bytes ++ row.flatMap Value.bytes
    again[4 + offset]? = bytes[4 + offset]? ∨ Unheeded row.length row bytes again (4 + offset) := by
  intro again
  obtain ⟨enough, _, _, spelled⟩ := spelled_of_decode decoded
  rw [← (admits_of_decode decoded).length_eq] at enough spelled
  have head := length_header_bytes row.length row
  have theirs : bytes[4 + offset]? =
      ((bytes.drop 4).take (NullBitmap.width row.length))[offset]? := by
    rw [List.getElem?_take_of_lt inside, List.getElem?_drop]
  have mine : again[4 + offset]? =
      (NullBitmap.ofColumns row.length row.nullColumns).bytes[offset]? := by
    rw [List.getElem?_append_left (head ▸ Nat.add_lt_add_left inside 4), RowHeader.bytes,
      ← Bytes.length_ofWord, List.getElem?_append_right (Nat.le_add_right _ _),
      Nat.add_sub_cancel_left]
    rfl
  have width : ((bytes.drop 4).take (NullBitmap.width row.length)).length =
      NullBitmap.width row.length := by
    unfold RowHeader.width at enough
    rw [List.length_take, List.length_drop]
    omega
  have marked := spelled.marked
  simp only [Nat.zero_add] at marked
  rcases agrees_nulls (width ▸ inside) width marked with agree | ⟨last, used⟩
  · exact .inl (mine.trans (agree.trans theirs.symm))
  · apply Or.inr
    apply Unheeded.padding
    · unfold RowHeader.width
      omega
    · simpa only [List.getD_eq_getElem?_getD, mine, theirs, Nat.add_sub_cancel_left] using used

theorem agrees_values (decoded : decode schema bytes = .ok row) {offset : Nat}
    (inside : offset < (row.flatMap Value.bytes).length) :
    let again := (row.header row.length).bytes ++ row.flatMap Value.bytes
    let position := RowHeader.width row.length + offset
    again[position]? = bytes[position]? ∨ Unheeded row.length row bytes again position := by
  intro again position
  obtain ⟨_, parts, unread, spelled⟩ := spelled_of_decode decoded
  rw [← (admits_of_decode decoded).length_eq] at spelled
  have head := length_header_bytes row.length row
  rw [← length_flatten_of_readFrom spelled.read] at inside
  have theirs : bytes[position]? = parts.flatten[offset]? := by
    rw [← List.getElem?_drop, spelled.split, List.getElem?_append_left inside]
  have mine : again[position]? = (row.flatMap Value.bytes)[offset]? := by
    rw [List.getElem?_append_right (head ▸ Nat.le_add_right _ _), head, Nat.add_sub_cancel_left]
  rcases getElem?_flatMap_of_readFrom spelled.read offset with
    agree | ⟨column, byte, value, start, found, other⟩
  · exact .inl (mine.trans (agree.trans theirs.symm))
  · refine .inr (.truth column byte value ?_ (theirs.trans found) other)
    rw [width_eq, ← start]

theorem agrees_of_decode (decoded : decode schema bytes = .ok row) (position : Nat) :
    let again := (row.header row.length).bytes ++ row.flatMap Value.bytes
    position < again.length →
      again[position]? = bytes[position]? ∨ Unheeded row.length row bytes again position := by
  intro again inside
  by_cases front : position < 4
  · exact .inr (.size front)
  obtain ⟨offset, rfl⟩ := Nat.exists_eq_add_of_le (Nat.le_of_not_lt front)
  by_cases marks : 4 + offset < RowHeader.width row.length
  · exact agrees_marks decoded (Nat.lt_of_add_lt_add_left marks)
  · obtain ⟨behind, place⟩ := Nat.exists_eq_add_of_le (Nat.le_of_not_lt marks)
    rw [place] at inside ⊢
    rw [List.length_append, length_header_bytes] at inside
    exact agrees_values decoded (Nat.lt_of_add_lt_add_left inside)

end Row

end RowStore
