import RowStore.Proofs.Row.RoundTrip

/-!
Rows that are cut off. A reader does not rely on the size in front of a row, and yet it finds out about
every cut: the head is too short, or what is read next passes the end.
-/

namespace RowStore

/-- A fault that tells of a row of `size` bytes that it was cut off: they are too few for its head, or for
what is read behind it. -/
def RowFault.TellsCut (columns size : Nat) : RowFault → Prop
  | headerTooShort needed actual => needed = RowHeader.width columns ∧ actual = size ∧ size < needed
  | pastEnd count offset total =>
    total = size ∧ RowHeader.width columns ≤ offset ∧ offset ≤ size ∧ size < offset + count
  | badText _ _ => False

namespace Row

variable {cursor : Cursor} {column : Column} {columns : List Column} {value : Value} {row : Row}
  {nulls : NullBitmap} {index count : Nat} {bytes rest : List UInt8} {schema : Schema}

/-- The bytes of a row are those in front of the cursor and those that are unread. -/
def Cursor.Counts (cursor : Cursor) : Prop := cursor.size = cursor.offset + cursor.rest.length

theorem Cursor.Counts.behind (counts : cursor.Counts) (unread : cursor.rest = bytes ++ rest) :
    (cursor.behind bytes.length rest).Counts := by
  have length := congrArg List.length unread
  unfold Cursor.Counts at counts ⊢
  rw [List.length_append] at length
  simp only [Cursor.behind]
  omega

/-- What is read at the cursor or behind it passes the end. -/
def Cursor.Ends {Answer : Type} (cursor : Cursor) (result : Except RowFault Answer) : Prop :=
  ∃ count offset, result = .error (.pastEnd count offset cursor.size) ∧
    cursor.offset ≤ offset ∧ offset ≤ cursor.size ∧ cursor.size < offset + count

namespace Cursor.Ends

variable {Answer Next : Type} {result : Except RowFault Answer}

theorem bind {use : Answer → Except RowFault Next} (ends : cursor.Ends result) :
    cursor.Ends (result >>= use) := by
  obtain ⟨count, offset, rfl, within⟩ := ends
  exact ⟨count, offset, rfl, within⟩

theorem of_behind (ends : (cursor.behind count rest).Ends result) : cursor.Ends result := by
  obtain ⟨count, offset, rfl, later, within⟩ := ends
  exact ⟨count, offset, rfl, Nat.le_of_add_right_le later, within⟩

end Cursor.Ends

theorem Cursor.ends_take (counts : cursor.Counts) (short : cursor.rest.length < count) :
    cursor.Ends (cursor.take count) := by
  unfold Cursor.Counts at counts
  refine ⟨count, cursor.offset, ?_, Nat.le_refl _, by omega, by omega⟩
  rw [Cursor.take, if_neg (Nat.not_le.mpr short)]

theorem Cursor.ends_takeWord (counts : cursor.Counts) (short : cursor.rest.length < 4) :
    cursor.Ends cursor.takeWord :=
  (ends_take counts short).bind

/-- A value that is cut off is missed, wherever the cut is: in its length, in a character or before. -/
theorem Cursor.ends_takeValue (fits : value.fits column.type = true) (present : value.isNull = false)
    (bounded : value.Bounded) (counts : cursor.Counts) (cut : cursor.rest <+: value.bytes)
    (short : cursor.rest.length < value.bytes.length) : cursor.Ends (cursor.takeValue column) := by
  rw [Value.length_bytes] at short
  cases value with
  | int number =>
    have ends := ends_takeWord counts short
    simp only [takeValue, Value.fits_int_iff.mp fits]
    exact ends.bind
  | float number =>
    have ends := ends_takeWord counts short
    simp only [takeValue, Value.fits_float_iff.mp fits]
    exact ends.bind
  | bool truth =>
    have ends := ends_take counts short
    simp only [takeValue, Value.fits_bool_iff.mp fits]
    exact ends.bind
  | text content =>
    by_cases early : cursor.rest.length < 4
    · have ends := ends_takeWord counts early
      rcases Value.fits_text_iff.mp fits with declared | declared
      all_goals
        simp only [takeValue, declared]
        exact ends.bind
    · have four := Bytes.length_ofNat 4 content.utf8ByteSize
      obtain ⟨part, unread⟩ := List.prefix_of_prefix_length_le (List.prefix_append _ _) cut
        (four.trans_le (Nat.le_of_not_lt early))
      rw [← unread, List.length_append, four, Value.width] at short
      obtain ⟨length, size, found⟩ := takeLength_append bounded unread.symm
      have counts := counts.behind unread.symm
      rw [four] at counts
      have ends := (ends_take counts (size ▸ Nat.lt_of_add_lt_add_left short)).of_behind
      rcases Value.fits_text_iff.mp fits with declared | declared
      all_goals
        simp only [takeValue, declared, found]
        exact ends.bind
  | null => cases present

/-- Of values that are cut off, one is missed. -/
theorem ends_decodeFrom (follows : Follows nulls index columns row) (counts : cursor.Counts)
    (cut : cursor.rest <+: row.flatMap Value.bytes)
    (short : cursor.rest.length < (row.flatMap Value.bytes).length) :
    cursor.Ends (decodeFrom nulls index cursor columns) := by
  induction columns generalizing row index cursor with
  | nil =>
    obtain rfl := List.length_eq_zero_iff.mp follows.arity
    simp at short
  | cons column columns ih =>
    cases row with
    | nil => simpa using follows.arity
    | cons value row =>
      rw [List.flatMap_cons] at cut short
      unfold decodeFrom
      rcases follows.head with ⟨mark, rfl⟩ | ⟨mark, present, fits, bounded⟩
      · have ends := ih follows.tail counts cut short
        simp only [mark, if_true]
        exact ends.bind
      · simp only [mark, Bool.false_eq_true, if_false]
        by_cases whole : value.bytes.length ≤ cursor.rest.length
        · obtain ⟨rest, unread⟩ :=
            List.prefix_of_prefix_length_le (List.prefix_append _ _) cut whole
          rw [← unread, List.prefix_append_right_inj] at cut
          rw [← unread, List.length_append, List.length_append] at short
          have taken := Cursor.takeValue_append fits present bounded unread.symm
          have counts := counts.behind unread.symm
          rw [Value.length_bytes] at counts
          have ends := ih follows.tail counts cut (Nat.lt_of_add_lt_add_left short)
          rw [taken]
          exact ends.of_behind.bind
        · have cut := List.prefix_of_prefix_length_le cut (List.prefix_append _ _)
            (Nat.le_of_not_le whole)
          exact (Cursor.ends_takeValue fits present bounded counts cut
            (Nat.lt_of_not_le whole)).bind

/-- No part of a stored row that lacks its end is read as a row. -/
theorem truncation_detected {part : List UInt8} (encoded : row.encode schema = .ok bytes)
    (small : row.width schema.columns.length < UInt32.size) (cut : part <+: bytes)
    (strict : part ≠ bytes) :
    ∃ fault, decode schema part = .error fault ∧
      fault.TellsCut schema.columns.length part.length := by
  have length_eq := length_of_encode encoded
  have follows := follows_of_encode encoded (bounded_of_encode encoded (length_eq ▸ small))
  have short : part.length < bytes.length :=
    Nat.lt_of_le_of_ne cut.length_le fun same => strict (cut.eq_of_length same)
  obtain ⟨_, rfl⟩ := (encode_eq_ok_iff _ _ _).mp encoded
  have head := length_header_bytes schema.columns.length row
  by_cases whole : RowHeader.width schema.columns.length ≤ part.length
  · obtain ⟨rest, rfl⟩ :=
      List.prefix_of_prefix_length_le (List.prefix_append _ _) cut (head ▸ whole)
    rw [List.prefix_append_right_inj] at cut
    rw [List.length_append, List.length_append] at short
    let cursor : Cursor := ⟨RowHeader.width schema.columns.length + rest.length,
      RowHeader.width schema.columns.length, rest⟩
    have counts : cursor.Counts := rfl
    obtain ⟨count, offset, failed, within⟩ :=
      ends_decodeFrom follows counts cut (Nat.lt_of_add_lt_add_left short)
    refine ⟨_, (decode_header_append rest).trans failed, ?_, ?_⟩
    · rw [List.length_append, head]
    · rw [List.length_append, head]
      exact within
  · have few := Nat.lt_of_not_le whole
    refine ⟨.headerTooShort (RowHeader.width schema.columns.length) part.length, ?_, rfl, rfl, few⟩
    simp only [decode, RowHeader.read, if_pos few, bind, Except.bind]

/-- A row that is cut off inside of a letter. -/
theorem truncation_detected_inside_letter :
    let schema : Schema := ⟨"t", [.ofType "a" .int, .ofType "b" .text]⟩
    let row : Row := [.int 7, .text "é"]
    let part : List UInt8 := [0, 0, 0, 15, 0, 0, 0, 0, 7, 0, 0, 0, 2, 0xC3]
    row.encode schema = .ok (part ++ [0xA9]) ∧ row.width 2 < UInt32.size ∧
      part <+: part ++ [0xA9] ∧ part ≠ part ++ [0xA9] ∧
      ∃ fault, decode schema part = .error fault ∧ fault.TellsCut 2 part.length := by
  intro schema row part
  have encoded : row.encode schema = .ok (part ++ [0xA9]) := by decide +kernel
  have small : row.width 2 < UInt32.size := by decide
  have cut : part <+: part ++ [0xA9] := List.prefix_append _ _
  have strict : part ≠ part ++ [0xA9] := by simp
  exact ⟨encoded, small, cut, strict, truncation_detected encoded small cut strict⟩

end Row

end RowStore
