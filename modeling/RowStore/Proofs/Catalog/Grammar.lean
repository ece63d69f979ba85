import RowStore.Proofs.Catalog.Lawful

/-!
The grammar of catalog texts. A text is read as tables exactly if its lines, without the blanks around
them and without those that hold nothing else, are the blocks of these tables one after another.
-/

namespace RowStore

theorem ColumnType.ofName?_eq_some_iff {name : String} {type : ColumnType} :
    ofName? name = some type ↔ name = type.name := by
  constructor
  · intro found
    exact (beq_iff_eq.mp (List.find?_some (p := fun type : ColumnType => type.name == name) found)).symm
  · rintro rfl
    exact ofName?_name type

namespace CatalogText

/-- The lines of a text without the blanks around them, those that are all blank left out. -/
def contentLines (text : String) : List (List Char) :=
  ((Text.lines text.toList).map Text.trim).filter (!·.isEmpty)

/-- A line that opens the block of a table. -/
def Opens (table : String) (line : List Char) : Prop :=
  ∃ rest, line = "TABLE".toList ++ ' ' :: rest ∧ Text.trim rest = table.toList

/-- A line that declares a column: behind `COLUMN` stand its name, its type and its length, three words
and no more. -/
def Declares (column : Column) (line : List Char) : Prop :=
  ∃ rest length, line = "COLUMN".toList ++ ' ' :: rest ∧
    Text.words rest = [column.name.toList, column.type.name.toList, length] ∧
    Number.WritesWord length column.length

/-- Lines that are the blocks of tables, each of which can be stored. -/
inductive Blocks : List (List Char) → List Schema → Prop where
  | nil : Blocks [] []
  | cons {schema : Schema} {opening : List Char} {declarations rest : List (List Char)}
      {schemas : List Schema} (opens : Opens schema.table opening)
      (declares : List.Forall₂ Declares schema.columns declarations)
      (accepted : schema.check = .ok ()) (later : Blocks rest schemas) :
      Blocks (opening :: (declarations ++ "END".toList :: rest)) (schema :: schemas)

/-- What the lines that follow must be while the block of a table may be open, and the tables that they
end. -/
inductive Completes : Option Schema → List (List Char) → List Schema → Prop where
  | done : Completes none [] []
  | opening {table : String} {line : List Char} {rest : List (List Char)} {schemas : List Schema}
      (opens : Opens table line) (later : Completes (some ⟨table, []⟩) rest schemas) :
      Completes none (line :: rest) schemas
  | declaring {schema : Schema} {column : Column} {line : List Char} {rest : List (List Char)}
      {schemas : List Schema} (declares : Declares column line)
      (later : Completes (some ⟨schema.table, schema.columns ++ [column]⟩) rest schemas) :
      Completes (some schema) (line :: rest) schemas
  | ending {schema : Schema} {rest : List (List Char)} {schemas : List Schema}
      (accepted : schema.check = .ok ()) (later : Completes none rest schemas) :
      Completes (some schema) ("END".toList :: rest) (schema :: schemas)

variable {reading next : Reading} {schema : Schema} {column : Column} {line rest : List Char}
  {lines declarations : List (List Char)} {schemas : List Schema}

/-! ### Blocks and their lines -/

theorem Completes.declare {table : String} {before columns : List Column}
    (declares : List.Forall₂ Declares columns declarations)
    (later : Completes (some ⟨table, before ++ columns⟩) lines schemas) :
    Completes (some ⟨table, before⟩) (declarations ++ lines) schemas := by
  induction declares generalizing before with
  | nil => simpa using later
  | cons first _ ih =>
    apply Completes.declaring first
    apply ih
    simpa using later

theorem Blocks.completes (blocks : Blocks lines schemas) : Completes none lines schemas := by
  induction blocks with
  | nil => exact .done
  | cons opens declares accepted _ ih =>
    apply Completes.opening opens
    apply Completes.declare declares
    exact .ending accepted ih

/-- What completes an open block begins with the lines of its other columns. -/
theorem Completes.blocks {current : Option Schema} (completes : Completes current lines schemas) :
    match current with
    | none => Blocks lines schemas
    | some schema => ∃ columns declarations rest later,
        lines = declarations ++ "END".toList :: rest ∧
        List.Forall₂ Declares columns declarations ∧
        Schema.check ⟨schema.table, schema.columns ++ columns⟩ = .ok () ∧
        schemas = ⟨schema.table, schema.columns ++ columns⟩ :: later ∧ Blocks rest later := by
  induction completes with
  | done => exact .nil
  | opening opens _ ih =>
    obtain ⟨columns, declarations, rest, later, rfl, declares, accepted, rfl, blocks⟩ := ih
    exact .cons opens declares accepted blocks
  | @declaring schema column line _ _ declares _ ih =>
    obtain ⟨columns, declarations, rest, later, rfl, others, accepted, rfl, blocks⟩ := ih
    simp only [List.append_assoc, List.singleton_append] at accepted ⊢
    exact ⟨column :: columns, line :: declarations, rest, later, rfl, .cons declares others, accepted,
      rfl, blocks⟩
  | @ending schema rest schemas accepted _ ih =>
    refine ⟨[], [], rest, schemas, rfl, .nil, ?_, ?_, ih⟩
    · simpa using accepted
    · simp

theorem completes_none_iff : Completes none lines schemas ↔ Blocks lines schemas :=
  ⟨Completes.blocks, Blocks.completes⟩

/-! ### Reading line by line -/

theorem after?_eq_some_iff {word : String} :
    after? word line = some rest ↔ line = word.toList ++ ' ' :: rest := by
  constructor
  · intro found
    simp only [after?] at found
    split at found
    · rename_i prefixed
      obtain ⟨behind, rfl⟩ := List.isPrefixOf_iff_prefix.mp prefixed
      rw [List.drop_left, Option.some.injEq] at found
      simp [found]
    · cases found
  · rintro rfl
    exact after?_append word rest

theorem readColumn_eq_ok_iff :
    readColumn line rest = .ok column ↔ ∃ length,
      Text.words rest = [column.name.toList, column.type.name.toList, length] ∧
        Number.WritesWord length column.length := by
  constructor
  · intro read
    unfold readColumn at read
    split at read
    · rename_i name type length three
      split at read
      · cases read
      · rename_i found
        split at read
        · cases read
        · rename_i word written
          cases read
          refine ⟨length, ?_, (Number.readWord_eq_ok_iff _ _).mp written⟩
          rw [three, ← ColumnType.ofName?_eq_some_iff.mp found]
          simp
    · cases read
  · rintro ⟨length, three, written⟩
    simp only [readColumn, three, String.ofList_toList, ColumnType.ofName?_name,
      (Number.readWord_eq_ok_iff _ _).mpr written]

theorem readLine_of_opens {table : String} (opens : Opens table line) (tables : List Schema) :
    readLine ⟨tables, none⟩ line = .ok ⟨tables, some ⟨table, []⟩⟩ := by
  obtain ⟨rest, rfl, name⟩ := opens
  simp only [readLine, after?_append, name, String.ofList_toList]
  rfl

theorem readLine_of_declares (declares : Declares column line) (tables : List Schema)
    (schema : Schema) :
    readLine ⟨tables, some schema⟩ line =
      .ok ⟨tables, some ⟨schema.table, schema.columns ++ [column]⟩⟩ := by
  obtain ⟨rest, length, rfl, three, written⟩ := declares
  have other : after? "TABLE" ("COLUMN".toList ++ ' ' :: rest) = none := by simp [after?]
  have read : readColumn ("COLUMN".toList ++ ' ' :: rest) rest = .ok column :=
    readColumn_eq_ok_iff.mpr ⟨length, three, written⟩
  simp only [readLine, other, after?_append, read]
  rfl

/-- What a line that is read does: it opens a block where none is open, declares a column of the open one
or ends it. -/
inductive Reads (reading : Reading) (line : List Char) : Reading → Prop where
  | opening {table : String} (opens : Opens table line) (closed : reading.current = none) :
      Reads reading line ⟨reading.tables, some ⟨table, []⟩⟩
  | declaring {schema : Schema} {column : Column} (declares : Declares column line)
      (unended : reading.current = some schema) :
      Reads reading line ⟨reading.tables, some ⟨schema.table, schema.columns ++ [column]⟩⟩
  | ending {schema : Schema} (ends : line = "END".toList) (unended : reading.current = some schema)
      (accepted : schema.check = .ok ()) : Reads reading line ⟨schema :: reading.tables, none⟩

theorem reads_of_readLine (nonempty : line ≠ []) (read : readLine reading line = .ok next) :
    Reads reading line next := by
  rw [readLine, if_neg (by simpa using nonempty)] at read
  split at read
  · rename_i _ _ name opening
    split at read
    · cases read
    · rename_i closed
      cases read
      refine .opening ⟨name, after?_eq_some_iff.mp opening, ?_⟩ closed
      exact String.toList_ofList.symm
  · rename_i rest _ declaring
    split at read
    · cases read
    · rename_i schema unended
      obtain ⟨column, declared, done⟩ := Outcome.bind_eq_ok_iff.mp read
      cases done
      obtain ⟨length, three, written⟩ := readColumn_eq_ok_iff.mp declared
      exact .declaring ⟨rest, length, after?_eq_some_iff.mp declaring, three, written⟩ unended
  · split at read
    · rename_i ending
      split at read
      · cases read
      · rename_i schema unended
        obtain ⟨_, accepted, done⟩ := Outcome.bind_eq_ok_iff.mp read
        cases done
        exact .ending ending unended (Outcome.mapError_eq_ok_iff.mp accepted)
    · cases read

theorem readLine_of_reads (reads : Reads reading line next) : readLine reading line = .ok next := by
  obtain ⟨tables, current⟩ := reading
  cases reads with
  | opening opens closed =>
    obtain rfl : current = none := closed
    exact readLine_of_opens opens tables
  | declaring declares unended =>
    obtain rfl : current = some _ := unended
    exact readLine_of_declares declares tables _
  | ending ends unended accepted =>
    obtain rfl : current = some _ := unended
    rw [ends]
    exact readLine_end tables accepted

theorem readLine_eq_ok_iff (nonempty : line ≠ []) :
    readLine reading line = .ok next ↔ Reads reading line next :=
  ⟨reads_of_readLine nonempty, readLine_of_reads⟩

/-- Lines are read to their end outside of a block exactly if they complete what was open before them. -/
theorem readLines_eq_ok_iff (lines : List (List Char)) (reading : Reading) (number : Nat)
    (tables : List Schema) :
    readLines reading number lines = .ok ⟨tables, none⟩ ↔
      ∃ schemas, Completes reading.current ((lines.map Text.trim).filter (!·.isEmpty)) schemas ∧
        tables = schemas.reverse ++ reading.tables := by
  induction lines generalizing reading number with
  | nil =>
    constructor
    · intro read
      cases read
      exact ⟨[], .done, rfl⟩
    · rintro ⟨schemas, completes, rfl⟩
      obtain ⟨before, current⟩ := reading
      cases completes
      rfl
  | cons line rest ih =>
    rw [List.map_cons]
    by_cases blank : Text.trim line = []
    · rw [readLines, blank]
      exact ih reading (number + 1)
    · rw [List.filter_cons_of_pos (by simpa using blank), readLines, Outcome.bind_eq_ok_iff]
      simp only [Outcome.mapError_eq_ok_iff, ih, readLine_eq_ok_iff blank]
      constructor
      · rintro ⟨next, reads, schemas, later, rfl⟩
        cases reads with
        | opening opens closed => exact ⟨schemas, closed ▸ .opening opens later, rfl⟩
        | declaring declares unended => exact ⟨schemas, unended ▸ .declaring declares later, rfl⟩
        | @ending schema ends unended accepted =>
          refine ⟨schema :: schemas, ?_, by simp⟩
          rw [unended, ends]
          exact .ending accepted later
      · rintro ⟨schemas, completes, rfl⟩
        obtain ⟨before, current⟩ := reading
        generalize Text.trim line = line at completes
        cases completes with
        | opening opens later => exact ⟨_, .opening opens rfl, schemas, later, rfl⟩
        | declaring declares later => exact ⟨_, .declaring declares rfl, schemas, later, rfl⟩
        | ending accepted later => exact ⟨_, .ending rfl rfl accepted, _, later, by simp⟩

theorem parse_eq_ok_iff_blocks (text : String) (tables : List Schema) :
    parse text = .ok tables ↔ Blocks (contentLines text) tables := by
  have read := readLines_eq_ok_iff (Text.lines text.toList) ⟨[], none⟩ 1 tables.reverse
  rw [← completes_none_iff]
  constructor
  · intro parsed
    obtain ⟨⟨found, current⟩, finished, done⟩ := Outcome.bind_eq_ok_iff.mp parsed
    cases current with
    | some schema => cases done
    | none =>
      cases done
      rw [List.reverse_reverse] at read
      obtain ⟨schemas, completes, same⟩ := read.mp finished
      have same : found = schemas.reverse := by simpa using same
      rw [same, List.reverse_reverse]
      exact completes
  · intro completes
    have finished := read.mpr ⟨tables, completes, by simp⟩
    simp only [parse, finished, bind, Except.bind, pure, Except.pure, List.reverse_reverse]

/-- A text is read as tables exactly if its lines are their blocks, in order, and whatever is read as
tables is read as the same tables once it is written again. -/
theorem reads_exactly_blocks (text : String) :
    (∀ tables, parse text = .ok tables ↔ Blocks (contentLines text) tables) ∧
      ∀ tables, parse text = .ok tables → parse (render tables) = .ok tables := by
  refine ⟨parse_eq_ok_iff_blocks text, ?_⟩
  intro tables parsed
  exact parse_render_eq tables (checked_of_parse parsed)

/-- A text with blanks of several kinds around its lines and words, lines that are all blank, a length with
a plus sign and zeros, and a last line without an end. -/
theorem reads_exactly_blocks_spaced :
    let text := " TABLE \u00a0t \x0d\n\x0d\n\tCOLUMN a\u2003INT\t+004 \n\u3000\n" ++
      "COLUMN END TEXT 4294967295\nEND\t\nTABLE u\n COLUMN é VARCHAR 0\n END"
    let tables : List Schema :=
      [⟨"t", [⟨"a", .int, 4⟩, ⟨"END", .text, 4294967295⟩]⟩, ⟨"u", [⟨"é", .varchar, 0⟩]⟩]
    parse text = .ok tables ∧ Blocks (contentLines text) tables ∧
      parse (render tables) = .ok tables := by
  intro text tables
  have parsed : parse text = .ok tables := by decide +kernel
  obtain ⟨blocks, again⟩ := reads_exactly_blocks text
  exact ⟨parsed, (blocks tables).mp parsed, again tables parsed⟩

/-- A fourth word on the line of a column is one too many. -/
example : parse "TABLE t\nCOLUMN a INT 4 4\nEND" =
    .error (.invalid 2 (.columnFields "COLUMN a INT 4 4")) := by
  decide +kernel

end CatalogText

end RowStore
