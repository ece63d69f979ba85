import RowStore.Catalog.Text
import RowStore.Proofs.Number.Word
import RowStore.Proofs.Text.Pieces

/-!
A catalog text reads back as the schemas it was written from, as long as these can be stored.
-/

namespace RowStore

namespace Schema

theorem isWord_iff (name : String) : isWord name = true ↔ Text.IsWord name.toList := by
  simp [isWord, Text.IsWord]

theorem isWord_of_checkColumns {table : String} {seen : List String} {columns : List Column}
    (accepted : checkColumns table seen columns = .ok ()) :
    ∀ column ∈ columns, Text.IsWord column.name.toList := by
  induction columns generalizing seen with
  | nil => simp
  | cons column rest ih =>
    rw [checkColumns] at accepted
    cases word : isWord column.name with
    | false => simp [word] at accepted
    | true =>
      simp only [word, Bool.not_true, Bool.false_eq_true, if_false] at accepted
      split at accepted
      · cases accepted
      · intro other member
        rcases List.mem_cons.mp member with rfl | member
        · exact (isWord_iff _).mp word
        · exact ih accepted other member

/-- The names of a schema that can be stored are words. -/
theorem words_of_check {schema : Schema} (accepted : schema.check = .ok ()) :
    Text.IsWord schema.table.toList ∧ ∀ column ∈ schema.columns, Text.IsWord column.name.toList := by
  rw [check] at accepted
  cases word : isWord schema.table with
  | false => simp [word] at accepted
  | true =>
    simp only [word, Bool.not_true, Bool.false_eq_true, if_false] at accepted
    split at accepted
    · cases accepted
    · exact ⟨(isWord_iff _).mp word, isWord_of_checkColumns accepted⟩

end Schema

namespace CatalogText

variable {tables : List Schema} {schema : Schema} {column : Column}

/-- What stands behind the name of a column on its line. -/
def columnRest (column : Column) : List Char :=
  column.name.toList ++ ' ' :: (column.type.name.toList ++ ' ' :: Nat.toDigits 10 column.length.toNat)

/-- A column as a line without its end. -/
def columnChars (column : Column) : List Char := "COLUMN".toList ++ ' ' :: columnRest column

/-- A table name as a line without its end. -/
def tableChars (schema : Schema) : List Char := "TABLE".toList ++ ' ' :: schema.table.toList

/-- The lines of the block of a schema. -/
def blockLines (schema : Schema) : List (List Char) :=
  tableChars schema :: (schema.columns.map columnChars ++ ["END".toList])

theorem toList_columnLine (column : Column) :
    (columnLine column).toList = columnChars column ++ ['\n'] := by
  simp [columnLine, columnChars, columnRest, String.toList_append, toString]

theorem toList_block (schema : Schema) :
    (block schema).toList = (blockLines schema).flatMap fun line => line ++ ['\n'] := by
  have columns : (String.join (schema.columns.map columnLine)).toList =
      (schema.columns.map columnChars).flatMap fun line => line ++ ['\n'] := by
    rw [String.toList_join, List.flatMap_map, List.flatMap_map]
    simp only [toList_columnLine]
  simp [block, blockLines, tableChars, String.toList_append, columns, toString]

theorem toList_render (tables : List Schema) :
    (render tables).toList = (tables.flatMap blockLines).flatMap fun line => line ++ ['\n'] := by
  rw [render, String.toList_join, List.flatMap_map, List.flatMap_assoc]
  simp only [toList_block]

theorem after?_append (word : String) (rest : List Char) :
    after? word (word.toList ++ ' ' :: rest) = some rest := by
  have split : word.toList ++ ' ' :: rest = (word.toList ++ [' ']) ++ rest := by
    rw [List.append_assoc, List.singleton_append]
  rw [after?, split, if_pos (List.isPrefixOf_iff_prefix.mpr (List.prefix_append _ _)),
    List.drop_left]

theorem trim_of_isWord {chars : List Char} (word : Text.IsWord chars) : Text.trim chars = chars :=
  Text.trim_eq_self (fun c head => word.2 c (List.mem_of_head? head))
    fun c last => word.2 c (List.mem_of_getLast? last)

theorem readLine_table (tables : List Schema) (word : Text.IsWord schema.table.toList) :
    readLine ⟨tables, none⟩ (tableChars schema) = .ok ⟨tables, some ⟨schema.table, []⟩⟩ := by
  rw [readLine, tableChars, after?_append]
  simp only [trim_of_isWord word, String.ofList_toList]
  rfl

theorem isWord_typeName (type : ColumnType) : Text.IsWord type.name.toList := by
  cases type <;> simp [ColumnType.name, Text.IsWord, Text.isBlank]

theorem isWord_toDigits (value : Nat) : Text.IsWord (Nat.toDigits 10 value) := by
  refine ⟨Nat.toDigits_ne_nil, fun c member => ?_⟩
  have digit := Nat.isDigit_of_mem_toDigits (by decide) (by decide) member
  simp only [Char.isDigit, Bool.and_eq_true, decide_eq_true_eq, UInt32.le_iff_toNat_le] at digit
  change 48 ≤ c.toNat ∧ c.toNat ≤ 57 at digit
  simp only [Text.isBlank, Bool.or_eq_false_iff, Bool.and_eq_false_iff, decide_eq_false_iff_not,
    beq_eq_false_iff_ne]
  omega

/-- The words behind `COLUMN` are read as the column they were written for. -/
theorem readColumn_columnRest (line : List Char) (word : Text.IsWord column.name.toList) :
    readColumn line (columnRest column) = .ok column := by
  have words : Text.words (columnRest column) =
      [column.name.toList, column.type.name.toList, Nat.toDigits 10 column.length.toNat] := by
    rw [columnRest, Text.words_append_blank (by decide), Text.words_append_blank (by decide),
      Text.words_of_isWord word, Text.words_of_isWord (isWord_typeName column.type),
      Text.words_of_isWord (isWord_toDigits column.length.toNat)]
    rfl
  rw [readColumn, words]
  simp only [String.ofList_toList, ColumnType.ofName?_name, Number.readWord_toDigits]

theorem readLine_column (tables : List Schema) (schema : Schema)
    (word : Text.IsWord column.name.toList) :
    readLine ⟨tables, some schema⟩ (columnChars column) =
      .ok ⟨tables, some ⟨schema.table, schema.columns ++ [column]⟩⟩ := by
  have other : after? "TABLE" (columnChars column) = none := by
    rw [after?, if_neg]
    exact fun prefixed => by simp [columnChars] at prefixed
  rw [readLine, other, columnChars, after?_append]
  simp only
  rw [readColumn_columnRest _ word]
  rfl

theorem readLine_end (tables : List Schema) (accepted : schema.check = .ok ()) :
    readLine ⟨tables, some schema⟩ "END".toList = .ok ⟨schema :: tables, none⟩ := by
  have table : after? "TABLE" "END".toList = none := by decide
  have column : after? "COLUMN" "END".toList = none := by decide
  rw [readLine, table, column]
  simp only [accepted]
  rfl

/-- Lines are read as they stand where they have no blanks at their ends. -/
theorem readLines_cons {reading next : Reading} {line : List Char} (number : Nat)
    (rest : List (List Char)) (plain : Text.trim line = line) (read : readLine reading line = .ok next) :
    readLines reading number (line :: rest) = readLines next (number + 1) rest := by
  rw [readLines, plain, read]
  rfl

/-- A line of a word, a space and what ends in another word has no blanks at its ends. -/
theorem trim_line {first : Char} (start : List Char) {last : List Char}
    (kept : Text.isBlank first = false) (word : Text.IsWord last) :
    Text.trim (first :: (start ++ last)) = first :: (start ++ last) := by
  apply Text.trim_eq_self
  · intro c head
    cases head
    exact kept
  · intro c ending
    rw [← List.cons_append, List.getLast?_append_of_ne_nil _ word.1] at ending
    exact word.2 c (List.mem_of_getLast? ending)

theorem trim_tableChars (word : Text.IsWord schema.table.toList) :
    Text.trim (tableChars schema) = tableChars schema :=
  trim_line ['A', 'B', 'L', 'E', ' '] (by decide) word

theorem trim_columnChars (column : Column) :
    Text.trim (columnChars column) = columnChars column := by
  have split : columnChars column = 'C' :: (("OLUMN ".toList ++ column.name.toList ++
      ' ' :: (column.type.name.toList ++ [' '])) ++ Nat.toDigits 10 column.length.toNat) := by
    simp [columnChars, columnRest]
  rw [split]
  exact trim_line _ (by decide) (isWord_toDigits _)

theorem readLines_columns (tables : List Schema) (schema : Schema) (columns : List Column)
    (words : ∀ column ∈ columns, Text.IsWord column.name.toList) (number : Nat)
    (rest : List (List Char)) :
    readLines ⟨tables, some schema⟩ number (columns.map columnChars ++ rest) =
      readLines ⟨tables, some ⟨schema.table, schema.columns ++ columns⟩⟩ (number + columns.length)
        rest := by
  induction columns generalizing schema number with
  | nil => rw [List.append_nil]; rfl
  | cons column columns ih =>
    rw [List.map_cons, List.cons_append, readLines_cons number _ (trim_columnChars column)
      (readLine_column tables schema (words column List.mem_cons_self)),
      ih _ fun other member => words other (List.mem_cons_of_mem _ member)]
    simp only [List.append_assoc, List.singleton_append, List.length_cons, Nat.add_assoc,
      Nat.add_comm 1]

/-- The lines of a block are read as its schema. -/
theorem readLines_block (tables : List Schema) (accepted : schema.check = .ok ()) (number : Nat)
    (rest : List (List Char)) :
    ∃ later, readLines ⟨tables, none⟩ number (blockLines schema ++ rest) =
      readLines ⟨schema :: tables, none⟩ later rest := by
  obtain ⟨word, words⟩ := Schema.words_of_check accepted
  refine ⟨number + 1 + schema.columns.length + 1, ?_⟩
  rw [blockLines, List.cons_append, List.append_assoc,
    readLines_cons number _ (trim_tableChars word) (readLine_table tables word),
    readLines_columns tables _ schema.columns words, List.nil_append, List.singleton_append,
    readLines_cons _ _ (by decide) (readLine_end tables accepted)]

theorem readLines_blocks (tables read : List Schema)
    (accepted : ∀ schema ∈ tables, schema.check = .ok ()) (number : Nat) :
    readLines ⟨read, none⟩ number (tables.flatMap blockLines) = .ok ⟨tables.reverse ++ read, none⟩ := by
  induction tables generalizing read number with
  | nil => rfl
  | cons schema rest ih =>
    obtain ⟨later, same⟩ := readLines_block read (accepted schema List.mem_cons_self) number
      (rest.flatMap blockLines)
    rw [List.flatMap_cons, same, ih _ fun other member => accepted other (List.mem_cons_of_mem _ member)]
    rw [List.reverse_cons, List.append_assoc, List.singleton_append]

theorem not_mem_of_isWord {chars : List Char} (word : Text.IsWord chars) : '\n' ∉ chars := by
  intro member
  exact absurd (word.2 _ member) (by decide)

/-- No line that is written holds a line feed. -/
theorem unbroken_blockLines (accepted : schema.check = .ok ()) :
    ∀ line ∈ blockLines schema, '\n' ∉ line := by
  obtain ⟨word, words⟩ := Schema.words_of_check accepted
  intro line member
  rw [blockLines, List.mem_cons, List.mem_append, List.mem_map, List.mem_singleton] at member
  rcases member with rfl | ⟨column, among, rfl⟩ | rfl
  · simp [tableChars, not_mem_of_isWord word]
  · simp [columnChars, columnRest, not_mem_of_isWord (words column among),
      not_mem_of_isWord (isWord_typeName column.type),
      not_mem_of_isWord (isWord_toDigits column.length.toNat)]
  · decide

/-- A catalog text is read as the schemas it was written from. -/
theorem parse_render_eq (tables : List Schema)
    (accepted : ∀ schema ∈ tables, schema.check = .ok ()) : parse (render tables) = .ok tables := by
  have unbroken : ∀ line ∈ tables.flatMap blockLines, '\n' ∉ line := by
    intro line member
    obtain ⟨schema, among, inside⟩ := List.mem_flatMap.mp member
    exact unbroken_blockLines (accepted schema among) line inside
  rw [parse, toList_render, Text.lines_flatMap _ unbroken]
  simp only [readLines_blocks tables [] accepted, List.append_nil, bind, Except.bind, pure, Except.pure,
    List.reverse_reverse]

end CatalogText

end RowStore
