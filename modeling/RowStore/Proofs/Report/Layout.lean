import Mathlib
import RowStore.Report

/-!
The layout of a table of rows. All lines show their texts at the same positions, and a column is as wide
as the widest text in it. A table is shown exactly if no column is too wide.
-/

namespace RowStore.Report

/-- What a row shows in a column. -/
def shown (row : Row) (column : Nat) : String :=
  match row[column]? with
  | none | some .null => "NULL"
  | some value => value.render

/-- The text at the head of a column. -/
def heading (schema : Schema) (column : Nat) : String :=
  (schema.columns[column]?.map Column.name).getD ""

/-- The texts in a column: the one at its head, and what the rows show. -/
def columnTexts (schema : Schema) (rows : List Row) (column : Nat) : List String :=
  heading schema column :: rows.map (shown · column)

/-- No column has a text with a line feed. -/
def Unbroken (schema : Schema) (rows : List Row) : Prop :=
  ∀ column < schema.columns.length, ∀ text ∈ columnTexts schema rows column, '\n' ∉ text.toList

instance (schema : Schema) (rows : List Row) : Decidable (Unbroken schema rows) :=
  inferInstanceAs (Decidable (∀ column < schema.columns.length,
    ∀ text ∈ columnTexts schema rows column, '\n' ∉ text.toList))

/-- The width of a column in characters. -/
def columnWidth (schema : Schema) (rows : List Row) (column : Nat) : Nat :=
  ((columnTexts schema rows column).map String.length).max (List.cons_ne_nil _ _)

/-- The position at which a column begins in every line. -/
def columnStart (schema : Schema) (rows : List Row) : Nat → Nat
  | 0 => 1
  | column + 1 => columnStart schema rows column + columnWidth schema rows column + 3

/-- The position at which the last column ends. -/
def lineLength (schema : Schema) (rows : List Row) : Nat :=
  match schema.columns.length with
  | 0 => 1
  | last + 1 => columnStart schema rows last + columnWidth schema rows last

/-- A text, and spaces up to a width. -/
def filled (width : Nat) (text : String) : List Char :=
  text.toList ++ List.replicate (width - text.length) ' '

/-- A line that has a part in each column, and the same gap between any two. -/
structure Lined (schema : Schema) (rows : List Row) (lead : Char) (gap : List Char)
    (part : Nat → List Char) (line : List Char) : Prop where
  length_eq : line.length = lineLength schema rows
  head_eq : line.head? = some lead
  part_eq : ∀ column < schema.columns.length,
    (line.drop (columnStart schema rows column)).take (columnWidth schema rows column) = part column
  gap_eq : ∀ column, column + 1 < schema.columns.length →
    (line.drop (columnStart schema rows column + columnWidth schema rows column)).take 3 = gap

/-- A line of texts, each filled up to the width of its column. -/
def LinedTexts (schema : Schema) (rows : List Row) (text : Nat → String) : List Char → Prop :=
  Lined schema rows ' ' [' ', '|', ' '] fun column =>
    filled (columnWidth schema rows column) (text column)

/-- The lines of a table: the heads of the columns, a line below them, the rows in order, and how many
there are. -/
structure LaidOut (schema : Schema) (rows : List Row) (lines : List (List Char)) : Prop where
  width : ∀ column < schema.columns.length,
    IsGreatest {length | ∃ text ∈ columnTexts schema rows column, text.length = length}
      (columnWidth schema rows column)
  lines : ∃ header separator body,
    lines = header :: separator :: body ++ [("(" ++ rowCount rows.length ++ ")").toList] ∧
    LinedTexts schema rows (heading schema) header ∧
    Lined schema rows '-' ['-', '+', '-']
      (fun column => List.replicate (columnWidth schema rows column) '-') separator ∧
    List.Forall₂ (fun row => LinedTexts schema rows (shown row)) rows body

variable {schema : Schema} {rows : List Row}

theorem isGreatest_columnWidth (column : Nat) :
    IsGreatest {length | ∃ text ∈ columnTexts schema rows column, text.length = length}
      (columnWidth schema rows column) := by
  constructor
  · exact List.mem_map.mp (List.max_mem _)
  · rintro _ ⟨text, member, rfl⟩
    exact List.le_max_of_mem (List.mem_map_of_mem member)

theorem length_le_columnWidth {column : Nat} {text : String}
    (member : text ∈ columnTexts schema rows column) :
    text.length ≤ columnWidth schema rows column :=
  (isGreatest_columnWidth column).2 ⟨text, member, rfl⟩

theorem foldl_eq_columnWidth (column : Nat) :
    rows.foldl (fun width row => max width (shown row column).length) (heading schema column).length =
      columnWidth schema rows column := by
  change _ = ((rows.map (shown · column)).map String.length).foldl max (heading schema column).length
  rw [List.foldl_map, List.foldl_map]

/-- The text of a value is that of `NULL` where a row has none. -/
theorem cells_eq (columns : Nat) (row : Row) : cells columns row = (List.range columns).map (shown row) := by
  apply List.map_congr_left
  intro column _
  rw [shown]
  match row[column]? with
  | none => rfl
  | some .null => rfl
  | some (.int _) | some (.float _) | some (.bool _) | some (.text _) => rfl

theorem headers_eq (schema : Schema) :
    schema.columns.map Column.name = (List.range schema.columns.length).map (heading schema) := by
  apply List.ext_getElem
  · simp
  · intro column inside _
    rw [List.length_map] at inside
    simp [heading, inside]

theorem zipWith_map_range {First Second Result : Type} (columns : Nat) (use : First → Second → Result)
    (first : Nat → First) (second : Nat → Second) :
    ((List.range columns).map first).zipWith use ((List.range columns).map second) =
      (List.range columns).map fun column => use (first column) (second column) := by
  rw [List.zipWith_map, List.zipWith_self]

theorem foldl_widths (columns : Nat) (width : Nat → Nat) (rows : List Row) :
    (rows.map (cells columns)).foldl
        (fun widths row => widths.zipWith (fun width cell => max width cell.length) row)
        ((List.range columns).map width) =
      (List.range columns).map fun column =>
        rows.foldl (fun width row => max width (shown row column).length) (width column) := by
  induction rows generalizing width with
  | nil => rfl
  | cons row rest ih =>
    rw [List.map_cons, List.foldl_cons, cells_eq, zipWith_map_range, ih]
    rfl

theorem widths_eq (schema : Schema) (rows : List Row) :
    widths (schema.columns.map Column.name) (rows.map (cells schema.columns.length)) =
      (List.range schema.columns.length).map (columnWidth schema rows) := by
  rw [widths, headers_eq, List.map_map]
  refine (foldl_widths _ _ rows).trans ?_
  exact List.map_congr_left fun column _ => foldl_eq_columnWidth column

/-- Joined parts with one of them between those before it and those behind it. -/
theorem intercalate_append_cons (gap : List Char) (front : List (List Char)) (part : List Char)
    (back : List (List Char)) :
    gap.intercalate (front ++ part :: back) =
      front.flatMap (· ++ gap) ++ (part ++ back.flatMap (gap ++ ·)) := by
  induction front with
  | nil =>
    induction back generalizing part with
    | nil => simp
    | cons next rest ih =>
      have ih := ih next
      rw [List.nil_append, List.flatMap_nil, List.nil_append] at ih ⊢
      rw [List.intercalate_cons_cons, ih]
      simp
  | cons first rest ih =>
    rw [List.cons_append, List.intercalate_cons_of_ne_nil (by simp), ih]
    simp

theorem toList_pushn (text : String) (c : Char) (count : Nat) :
    (text.pushn c count).toList = text.toList ++ List.replicate count c := by
  rw [String.pushn_eq_repeat_push]
  induction count with
  | zero => simp [Nat.repeat]
  | succ count ih => rw [Nat.repeat, String.toList_push, ih, List.append_assoc, List.replicate_succ']

theorem toList_pad (width : Nat) (cell : String) : (pad width cell).toList = filled width cell :=
  toList_pushn cell ' ' _

/-- A line with a part in each column. -/
def ruled (lead : Char) (gap : List Char) (columns : Nat) (part : Nat → List Char) : List Char :=
  lead :: gap.intercalate ((List.range columns).map part)

theorem toList_line (columns : Nat) (width : Nat → Nat) (text : Nat → String) :
    (line ((List.range columns).map width) ((List.range columns).map text)).toList =
      ruled ' ' [' ', '|', ' '] columns (fun column => filled (width column) (text column)) ++
        ['\n'] := by
  rw [line, zipWith_map_range, String.toList_append, String.toList_append, String.toList_intercalate,
    List.map_map]
  simp only [Function.comp_def, toList_pad]
  rfl

theorem toList_separator (columns : Nat) (width : Nat → Nat) :
    (separator ((List.range columns).map width)).toList =
      ruled '-' ['-', '+', '-'] columns (fun column => List.replicate (width column) '-') ++
        ['\n'] := by
  rw [separator, String.toList_append, String.toList_append, String.toList_intercalate, List.map_map,
    List.map_map]
  simp only [Function.comp_def, toList_pushn]
  rfl

theorem drop_range {columns column : Nat} (inside : column < columns) :
    (List.range columns).drop column = column :: (List.range columns).drop (column + 1) := by
  rw [List.drop_eq_getElem_cons (by simpa using inside), List.getElem_range]

/-- The columns before one, that one and those behind it. -/
theorem range_split {columns column : Nat} (inside : column < columns) :
    List.range column ++ column :: (List.range columns).drop (column + 1) = List.range columns := by
  rw [← drop_range inside, ← Nat.min_eq_left (Nat.le_of_lt inside), ← List.take_range,
    Nat.min_eq_left (Nat.le_of_lt inside), List.take_append_drop]

section

variable {lead : Char} {gap : List Char} {part : Nat → List Char}

/-- What stands before a column is as long as the columns before it and their gaps. -/
theorem length_before (size : gap.length = 3) (column : Nat)
    (fits : ∀ earlier < column, (part earlier).length = columnWidth schema rows earlier) :
    (lead :: ((List.range column).map part).flatMap (· ++ gap)).length =
      columnStart schema rows column := by
  induction column with
  | zero => rfl
  | succ column ih =>
    rw [columnStart, ← ih fun earlier before => fits earlier (Nat.lt_succ_of_lt before),
      ← fits column (Nat.lt_succ_self _), List.range_succ, List.map_append, List.flatMap_append,
      ← List.cons_append, List.length_append]
    simp [size]
    omega

/-- A line with what stands before a column, the column, and what stands behind it. -/
theorem ruled_eq {columns column : Nat} (inside : column < columns) :
    ruled lead gap columns part =
      (lead :: ((List.range column).map part).flatMap (· ++ gap)) ++
        (part column ++
          (((List.range columns).drop (column + 1)).map part).flatMap (gap ++ ·)) := by
  rw [ruled, ← range_split inside, List.map_append, List.map_cons, intercalate_append_cons,
    range_split inside, List.cons_append]

theorem lined_ruled (size : gap.length = 3)
    (fits : ∀ column < schema.columns.length,
      (part column).length = columnWidth schema rows column) :
    Lined schema rows lead gap part (ruled lead gap schema.columns.length part) := by
  have before (column : Nat) (inside : column < schema.columns.length) :
      (lead :: ((List.range column).map part).flatMap (· ++ gap)).length =
        columnStart schema rows column :=
    length_before size column fun earlier less => fits earlier (Nat.lt_trans less inside)
  constructor
  case length_eq =>
    rw [lineLength]
    cases count : schema.columns.length with
    | zero => rfl
    | succ last =>
      have inside : last < schema.columns.length := count ▸ Nat.lt_succ_self last
      rw [ruled_eq (Nat.lt_succ_self last), List.drop_eq_nil_of_le (by simp), List.length_append,
        before last inside, List.map_nil, List.flatMap_nil, List.append_nil, fits last inside]
  case head_eq => rfl
  case part_eq =>
    intro column inside
    rw [ruled_eq inside, List.drop_left' (before column inside), List.take_left' (fits column inside)]
  case gap_eq =>
    intro column next
    have inside := Nat.lt_of_succ_lt next
    rw [ruled_eq inside, ← List.append_assoc, List.drop_left', drop_range next, List.map_cons,
      List.flatMap_cons, List.append_assoc, List.take_left' size]
    rw [List.length_append, before column inside, fits column inside]

theorem not_mem_ruled {columns : Nat} {c : Char} (other : c ≠ lead) (clear : c ∉ gap)
    (each : ∀ column < columns, c ∉ part column) : c ∉ ruled lead gap columns part := by
  cases columns with
  | zero => exact fun member => other (List.mem_singleton.mp member)
  | succ columns =>
    rw [ruled_eq (Nat.zero_lt_succ columns)]
    intro member
    simp only [List.range_zero, List.map_nil, List.flatMap_nil, List.mem_append, List.mem_singleton,
      List.mem_flatMap, List.mem_map] at member
    rcases member with same | here | ⟨_, ⟨column, among, rfl⟩, between | there⟩
    · exact other same
    · exact each 0 (Nat.zero_lt_succ columns) here
    · exact clear between
    · exact each column (List.mem_range.mp (List.mem_of_mem_drop among)) there

end

theorem length_filled {width : Nat} {text : String} (fits : text.length ≤ width) :
    (filled width text).length = width := by
  rw [filled, List.length_append, List.length_replicate, String.length_toList]
  omega

/-- Lines that are each ended by a line feed, and a last one that is not. -/
theorem splitOn_flatMap {all : List (List Char)} {last : List Char}
    (unbroken : ∀ line ∈ all ++ [last], '\n' ∉ line) :
    (all.flatMap (· ++ ['\n']) ++ last).splitOn '\n' = all ++ [last] := by
  have joined := intercalate_append_cons ['\n'] all last []
  rw [List.flatMap_nil, List.append_nil] at joined
  rw [← joined]
  exact List.splitOn_intercalate '\n' unbroken (by simp)

theorem not_mem_toDigits (number : Nat) : '\n' ∉ Nat.toDigits 10 number := by
  intro member
  have digit := Nat.isDigit_of_mem_toDigits (by decide) (by decide) member
  revert digit
  decide

theorem not_mem_rowCount (count : Nat) : '\n' ∉ ("(" ++ rowCount count ++ ")").toList := by
  rw [rowCount]
  split <;> simp [not_mem_toDigits]

theorem table?_eq_some_iff (nonempty : rows ≠ []) (text : String) :
    table? schema rows = some text ↔
      (∀ column < schema.columns.length, columnWidth schema rows column ≤ greatestWidth) ∧
        table schema rows = text := by
  simp [table?, widths_eq, nonempty]

/-- A line of texts, one in each column. -/
def textLine (schema : Schema) (rows : List Row) (text : Nat → String) : List Char :=
  ruled ' ' [' ', '|', ' '] schema.columns.length fun column =>
    filled (columnWidth schema rows column) (text column)

/-- The line below the heads of the columns. -/
def ruleLine (schema : Schema) (rows : List Row) : List Char :=
  ruled '-' ['-', '+', '-'] schema.columns.length fun column =>
    List.replicate (columnWidth schema rows column) '-'

/-- The lines of a table but the last. -/
def fullLines (schema : Schema) (rows : List Row) : List (List Char) :=
  textLine schema rows (heading schema) :: ruleLine schema rows ::
    rows.map fun row => textLine schema rows (shown row)

theorem toList_table (nonempty : rows ≠ []) :
    (table schema rows).toList =
      (fullLines schema rows).flatMap (· ++ ['\n']) ++ ("(" ++ rowCount rows.length ++ ")").toList := by
  have some : rows.isEmpty = false := by simpa using nonempty
  rw [table, some, fullLines]
  simp only [Bool.false_eq_true, if_false, List.length_map]
  rw [widths_eq, headers_eq, List.map_map]
  simp only [String.toList_append, String.toList_join, List.flatMap_cons, List.flatMap_map,
    Function.comp_def, cells_eq, toList_line, toList_separator, List.append_assoc, textLine, ruleLine]

theorem not_mem_filled {width : Nat} {text : String} (unbroken : '\n' ∉ text.toList) :
    '\n' ∉ filled width text := by
  rw [filled, List.mem_append, List.mem_replicate]
  rintro (inside | ⟨_, space⟩)
  · exact unbroken inside
  · cases space

section

variable {text : Nat → String} (among : ∀ column, text column ∈ columnTexts schema rows column)

include among

theorem lined_textLine : LinedTexts schema rows text (textLine schema rows text) :=
  lined_ruled rfl fun column _ => length_filled (length_le_columnWidth (among column))

theorem not_mem_textLine (unbroken : Unbroken schema rows) : '\n' ∉ textLine schema rows text :=
  not_mem_ruled (by decide) (by decide) fun column inside =>
    not_mem_filled (unbroken column inside _ (among column))

end

theorem heading_mem (column : Nat) : heading schema column ∈ columnTexts schema rows column :=
  List.mem_cons_self

theorem shown_mem {row : Row} (among : row ∈ rows) (column : Nat) :
    shown row column ∈ columnTexts schema rows column :=
  List.mem_cons_of_mem _ (List.mem_map_of_mem among)

theorem not_mem_ruleLine : '\n' ∉ ruleLine schema rows :=
  not_mem_ruled (by decide) (by decide) fun column _ => by simp [List.mem_replicate]

theorem splitOn_table (nonempty : rows ≠ []) (unbroken : Unbroken schema rows) :
    (table schema rows).toList.splitOn '\n' =
      fullLines schema rows ++ [("(" ++ rowCount rows.length ++ ")").toList] := by
  rw [toList_table nonempty]
  apply splitOn_flatMap
  intro line member
  simp only [fullLines, List.cons_append, List.mem_cons, List.mem_append, List.mem_map,
    List.not_mem_nil, or_false] at member
  rcases member with rfl | rfl | ⟨row, among, rfl⟩ | rfl
  · exact not_mem_textLine heading_mem unbroken
  · exact not_mem_ruleLine
  · exact not_mem_textLine (shown_mem among) unbroken
  · exact not_mem_rowCount rows.length

theorem laidOut_table (nonempty : rows ≠ []) (unbroken : Unbroken schema rows) :
    LaidOut schema rows ((table schema rows).toList.splitOn '\n') := by
  constructor
  case width => exact fun column _ => isGreatest_columnWidth column
  case lines =>
    refine ⟨_, _, _, splitOn_table nonempty unbroken, lined_textLine heading_mem,
      lined_ruled rfl fun column _ => List.length_replicate, ?_⟩
    rw [List.forall₂_map_right_iff, List.forall₂_same]
    exact fun row among => lined_textLine (shown_mem among)

/-- Rows are shown as a table that is laid out in columns exactly if no column is too wide. -/
theorem shows_table_iff (nonempty : rows ≠ []) (unbroken : Unbroken schema rows) :
    (∃ text, table? schema rows = some text ∧ LaidOut schema rows (text.toList.splitOn '\n')) ↔
      ∀ column < schema.columns.length, columnWidth schema rows column ≤ greatestWidth := by
  constructor
  · rintro ⟨text, done, _⟩
    exact ((table?_eq_some_iff nonempty text).mp done).1
  · intro narrow
    exact ⟨table schema rows, (table?_eq_some_iff nonempty _).mpr ⟨narrow, rfl⟩,
      laidOut_table nonempty unbroken⟩

/-- A row without its second value, and one with `NULL` for the first. -/
theorem shows_table_missing_value :
    let schema : Schema := ⟨"t", [.ofType "a" .text, .ofType "naïve" .text]⟩
    let rows : List Row := [[.text "é"], [.null, .text "ab"]]
    rows ≠ [] ∧ Unbroken schema rows ∧
      ∃ text, table? schema rows = some text ∧ LaidOut schema rows (text.toList.splitOn '\n') := by
  intro schema rows
  have nonempty : rows ≠ [] := List.cons_ne_nil _ _
  have unbroken : Unbroken schema rows := by decide +kernel
  exact ⟨nonempty, unbroken, (shows_table_iff nonempty unbroken).mpr (by decide +kernel)⟩

/-- One character more than can be filled up to. -/
theorem not_shows_table_wide :
    let schema : Schema := ⟨"t", [.ofType "a" .text]⟩
    let rows : List Row := [[.text (String.ofList (List.replicate 65536 'x'))]]
    rows ≠ [] ∧ Unbroken schema rows ∧
      ¬ ∃ text, table? schema rows = some text ∧ LaidOut schema rows (text.toList.splitOn '\n') := by
  intro schema rows
  have nonempty : rows ≠ [] := List.cons_ne_nil _ _
  have texts : columnTexts schema rows 0 = ["a", String.ofList (List.replicate 65536 'x')] := rfl
  refine ⟨nonempty, fun column inside text member => ?_, ?_⟩
  · rw [Nat.lt_one_iff.mp inside, texts] at member
    rcases List.mem_pair.mp member with rfl | rfl
    · decide
    · rw [String.toList_ofList, List.mem_replicate]
      exact fun wrong => absurd wrong.2 (by decide)
  · rintro ⟨text, done, _⟩
    have narrow := ((table?_eq_some_iff nonempty text).mp done).1 0 Nat.one_pos
    have wide : String.length _ ≤ columnWidth schema rows 0 :=
      length_le_columnWidth (texts ▸ List.mem_cons_of_mem _ List.mem_cons_self)
    rw [String.length_ofList, List.length_replicate] at wide
    exact absurd (Nat.le_trans wide narrow) (by decide)

/-- Short texts are filled up with spaces, and those of the last column as well. -/
example :
    table? ⟨"t", [.ofType "a" .text, .ofType "naïve" .text]⟩ [[.text "é"], [.null, .text "ab"]] =
      some (" a    | naïve\n" ++ "------+------\n" ++ " é    | NULL \n" ++ " NULL | ab   \n" ++
        "(2 rows)") := by
  decide +kernel

end RowStore.Report
