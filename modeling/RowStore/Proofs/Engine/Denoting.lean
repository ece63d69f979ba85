import RowStore.Proofs.Engine.JoinTree

/-!
What a name denotes in a source that is built from tables by joins. A name under a label denotes the
column of the table of that label, and a name by itself the column of the only table that has one,
wherever the table stands in the tree.
-/

namespace RowStore

open Text (IsPlain sameName qualify)

/-- A table with a column of a name, in any case. -/
def Relation.HasColumn (table : Relation) (name : String) : Prop :=
  ∃ column ∈ table.schema.columns, sameName column.name name = true

/-- Items of names of their own are told apart by their names. -/
theorem index_unique {Item : Type} {nameOf : Item → String} {items : List Item} {index other : Nat}
    {first second : Item}
    (distinct : items.Pairwise fun first second => Text.fold (nameOf first) ≠ Text.fold (nameOf second))
    (found : items[index]? = some first) (foundOther : items[other]? = some second)
    (same : Text.fold (nameOf first) = Text.fold (nameOf second)) : index = other := by
  have nodup : (items.map fun item => Text.fold (nameOf item)).Nodup := List.pairwise_map.mpr distinct
  have inside : index < (items.map fun item => Text.fold (nameOf item)).length := by
    rw [List.length_map]
    exact (List.getElem?_eq_some_iff.mp found).1
  refine (List.getElem?_inj inside nodup).mp ?_
  rw [List.getElem?_map, List.getElem?_map, found, foundOther, Option.map_some, Option.map_some, same]

/-- Tables that are told apart by their labels, without a dot in any name. -/
structure WellNamed (labels : List String) (tables : List Relation) : Prop where
  labels_plain : ∀ label ∈ labels, IsPlain label
  labels_distinct : labels.Pairwise fun first second => Text.fold first ≠ Text.fold second
  columns_plain : ∀ table ∈ tables, ∀ column ∈ table.schema.columns, IsPlain column.name

namespace Engine

/-- What names denote in a schema: positions in the columns of all tables from left to right. -/
structure Denotes (schema : Schema) (labels : List String) (tables : List Relation) : Prop where
  qualified : ∀ (index position : Nat) (label : String) (table : Relation) (column : Column),
    labels[index]? = some label → tables[index]? = some table →
    table.schema.columns[position]? = some column →
    ∀ written name, sameName label written = true → sameName column.name name = true →
      schema.resolve (qualify written name) = .ok (offset tables index + position)
  qualified_unknown : ∀ written name, IsPlain written → IsPlain name →
    (∀ (index : Nat) (label : String) (table : Relation), labels[index]? = some label →
      tables[index]? = some table → sameName label written = true → ¬ table.HasColumn name) →
    schema.resolve (qualify written name) = .error (.unknown (qualify written name))
  unqualified : ∀ (index position : Nat) (table : Relation) (column : Column),
    tables[index]? = some table → table.schema.columns[position]? = some column →
    ∀ name, sameName column.name name = true →
      (∀ (other : Nat) (found : Relation), tables[other]? = some found → found.HasColumn name →
        other = index) →
      schema.resolve name = .ok (offset tables index + position)
  unqualified_ambiguous : ∀ (index other : Nat) (table found : Relation), tables[index]? = some table →
    tables[other]? = some found → index ≠ other →
    ∀ name, IsPlain name → table.HasColumn name → found.HasColumn name →
      schema.resolve name = .error (.ambiguous name)
  unqualified_unknown : ∀ name, IsPlain name → (∀ table ∈ tables, ¬ table.HasColumn name) →
    schema.resolve name = .error (.unknown name)

variable {engine : Engine} {source : Source} {tables : List Relation} {schema : Schema}
  {table : Relation} {label : String} {index : Nat}

/-- A table of a source stands under its label. -/
theorem Reads.label_of_getElem? (lawful : Catalog.Lawful engine.catalog.tables)
    (reads : engine.Reads source tables) (found : tables[index]? = some table) :
    ∃ label, source.labels[index]? = some label ∧ Text.fold table.schema.table = Text.fold label ∧
      table.schema.columns.Pairwise fun first second => Text.fold first.name ≠ Text.fold second.name := by
  obtain ⟨inside, rfl⟩ := List.getElem?_eq_some_iff.mp found
  have there : index < source.tables.length := reads.length_eq ▸ inside
  obtain ⟨named, distinct⟩ := schema_of_resolve lawful (reads.get there inside)
  refine ⟨_, ?_, named, distinct⟩
  rw [Source.labels, List.getElem?_map, List.getElem?_eq_getElem there]
  rfl

/-- The fields of well-named tables have no dots in their names. -/
theorem plain_fieldsOf (lawful : Catalog.Lawful engine.catalog.tables)
    (reads : engine.Reads source tables) (wellNamed : WellNamed source.labels tables) :
    ∀ field ∈ fieldsOf tables, field.Plain := by
  intro field member
  obtain ⟨position, found⟩ := List.mem_iff_getElem?.mp member
  obtain ⟨index, table, inner, column, present, inside, _, rfl⟩ := exists_of_getElem?_fieldsOf found
  obtain ⟨label, labelled, same, _⟩ := reads.label_of_getElem? lawful present
  refine ⟨?_, wellNamed.columns_plain table (List.mem_of_getElem? present) column
    (List.mem_of_getElem? inside)⟩
  exact (wellNamed.labels_plain label (List.mem_of_getElem? labelled)).of_fold same

/-- Tables that are read from a source and told apart by their names. -/
structure Told (engine : Engine) (source : Source) (tables : List Relation) : Prop where
  lawful : Catalog.Lawful engine.catalog.tables
  reads : engine.Reads source tables
  wellNamed : WellNamed source.labels tables

namespace Told

variable {position inner : Nat} {column : Column} {name : String}

theorem plain (told : engine.Told source tables) : ∀ field ∈ fieldsOf tables, field.Plain :=
  plain_fieldsOf told.lawful told.reads told.wellNamed

/-- Tables of one label are the same. -/
theorem index_eq (told : engine.Told source tables) {other : Nat} {found : Relation}
    (present : tables[index]? = some table) (presentOther : tables[other]? = some found)
    (same : Text.fold table.schema.table = Text.fold found.schema.table) : index = other := by
  obtain ⟨label, labelled, named, _⟩ := told.reads.label_of_getElem? told.lawful present
  obtain ⟨_, labelledOther, namedOther, _⟩ := told.reads.label_of_getElem? told.lawful presentOther
  refine index_unique told.wellNamed.labels_distinct labelled labelledOther ?_
  exact named.symm.trans (same.trans namedOther)

/-- Columns of one table with one name are the same. -/
theorem position_eq (told : engine.Told source tables) {other : Column}
    (present : tables[index]? = some table) (found : table.schema.columns[position]? = some column)
    (foundOther : table.schema.columns[inner]? = some other)
    (same : Text.fold column.name = Text.fold other.name) : position = inner := by
  obtain ⟨_, _, _, distinct⟩ := told.reads.label_of_getElem? told.lawful present
  exact index_unique distinct found foundOther same

/-- The table of a field that a qualified name is about has the written label. -/
theorem fold_eq_of_label (told : engine.Told source tables) {written : String}
    (labelled : source.labels[index]? = some label) (present : tables[index]? = some table) :
    sameName table.schema.table written = true ↔ sameName label written = true := by
  obtain ⟨_, found, named, _⟩ := told.reads.label_of_getElem? told.lawful present
  cases labelled.symm.trans found
  rw [Text.sameName_iff, Text.sameName_iff, named]

theorem qualified (told : engine.Told source tables) (spans : schema.Spans (fieldsOf tables))
    (labelled : source.labels[index]? = some label) (present : tables[index]? = some table)
    (found : table.schema.columns[position]? = some column) {written : String}
    (same : sameName label written = true) (named : sameName column.name name = true) :
    schema.resolve (qualify written name) = .ok (offset tables index + position) := by
  have single : IsPlain written := (told.wellNamed.labels_plain label
    (List.mem_of_getElem? labelled)).of_fold ((Text.sameName_iff _ _).mp same).symm
  have alike : IsPlain name := (told.wellNamed.columns_plain table (List.mem_of_getElem? present) column
    (List.mem_of_getElem? found)).of_fold ((Text.sameName_iff _ _).mp named).symm
  have tableSame := (told.fold_eq_of_label labelled present).mpr same
  refine spans.resolve_qualify told.plain single alike fun other => ⟨?_, ?_⟩
  · rintro ⟨field, origin, about⟩
    obtain ⟨index', table', inner, column', presentOther, inside, rfl, rfl⟩ :=
      exists_of_getElem?_fieldsOf origin
    obtain ⟨tableOther, columnOther⟩ := about
    rw [Text.sameName_iff] at tableOther columnOther tableSame named
    obtain rfl := told.index_eq presentOther present (tableOther.trans tableSame.symm)
    cases presentOther.symm.trans present
    rw [told.position_eq present inside found (columnOther.trans named.symm)]
  · rintro rfl
    exact ⟨_, getElem?_fieldsOf present found, tableSame, named⟩

theorem qualified_unknown (told : engine.Told source tables) (spans : schema.Spans (fieldsOf tables))
    {written : String} (single : IsPlain written) (alike : IsPlain name)
    (nowhere : ∀ (index : Nat) (label : String) (table : Relation), source.labels[index]? = some label →
      tables[index]? = some table → sameName label written = true → ¬ table.HasColumn name) :
    schema.resolve (qualify written name) = .error (.unknown (qualify written name)) := by
  refine spans.resolve_qualify_unknown told.plain single alike ?_
  rintro field member ⟨tableSame, named⟩
  obtain ⟨position, origin⟩ := List.mem_iff_getElem?.mp member
  obtain ⟨index, table, inner, column, present, inside, _, rfl⟩ := exists_of_getElem?_fieldsOf origin
  obtain ⟨label, labelled, _, _⟩ := told.reads.label_of_getElem? told.lawful present
  exact nowhere index label table labelled present ((told.fold_eq_of_label labelled present).mp tableSame)
    ⟨column, List.mem_of_getElem? inside, named⟩

theorem unqualified (told : engine.Told source tables) (spans : schema.Spans (fieldsOf tables))
    (present : tables[index]? = some table) (found : table.schema.columns[position]? = some column)
    (named : sameName column.name name = true)
    (only : ∀ (other : Nat) (found : Relation), tables[other]? = some found → found.HasColumn name →
      other = index) : schema.resolve name = .ok (offset tables index + position) := by
  have alike : IsPlain name := (told.wellNamed.columns_plain table (List.mem_of_getElem? present) column
    (List.mem_of_getElem? found)).of_fold ((Text.sameName_iff _ _).mp named).symm
  refine spans.resolve_plain told.plain alike fun other => ⟨?_, ?_⟩
  · rintro ⟨field, origin, same⟩
    obtain ⟨index', table', inner, column', presentOther, inside, rfl, rfl⟩ :=
      exists_of_getElem?_fieldsOf origin
    obtain rfl := only index' table' presentOther ⟨column', List.mem_of_getElem? inside, same⟩
    cases presentOther.symm.trans present
    rw [Text.sameName_iff] at same named
    rw [told.position_eq present inside found (same.trans named.symm)]
  · rintro rfl
    exact ⟨_, getElem?_fieldsOf present found, named⟩

theorem ambiguous (told : engine.Told source tables) (spans : schema.Spans (fieldsOf tables))
    {other : Nat} {found : Relation} (present : tables[index]? = some table)
    (presentOther : tables[other]? = some found) (different : index ≠ other) (alike : IsPlain name)
    (has : table.HasColumn name) (hasOther : found.HasColumn name) :
    schema.resolve name = .error (.ambiguous name) := by
  obtain ⟨column, member, named⟩ := has
  obtain ⟨columnOther, memberOther, namedOther⟩ := hasOther
  obtain ⟨position, inside⟩ := List.mem_iff_getElem?.mp member
  obtain ⟨inner, insideOther⟩ := List.mem_iff_getElem?.mp memberOther
  refine spans.resolve_plain_ambiguous told.plain alike (getElem?_fieldsOf present inside)
    (getElem?_fieldsOf presentOther insideOther) named namedOther fun same => ?_
  exact different (told.index_eq present presentOther (congrArg Text.fold same))

theorem unqualified_unknown (told : engine.Told source tables) (spans : schema.Spans (fieldsOf tables))
    (alike : IsPlain name) (nowhere : ∀ table ∈ tables, ¬ table.HasColumn name) :
    schema.resolve name = .error (.unknown name) := by
  refine spans.resolve_plain_unknown told.plain alike fun field member => ?_
  obtain ⟨position, origin⟩ := List.mem_iff_getElem?.mp member
  obtain ⟨index, table, inner, column, present, inside, _, rfl⟩ := exists_of_getElem?_fieldsOf origin
  rw [Bool.eq_false_iff]
  intro same
  exact nowhere table (List.mem_of_getElem? present) ⟨column, List.mem_of_getElem? inside, same⟩

theorem denotes (told : engine.Told source tables) (spans : schema.Spans (fieldsOf tables)) :
    Denotes schema source.labels tables where
  qualified _ _ _ _ _ labelled present found _ _ same named :=
    told.qualified spans labelled present found same named
  qualified_unknown _ _ single alike nowhere := told.qualified_unknown spans single alike nowhere
  unqualified _ _ _ _ present found _ named only := told.unqualified spans present found named only
  unqualified_ambiguous _ _ _ _ present presentOther different _ alike has hasOther :=
    told.ambiguous spans present presentOther different alike has hasOther
  unqualified_unknown _ alike nowhere := told.unqualified_unknown spans alike nowhere

end Told

/-- In every source that is built from tables by joins, whatever its shape, a qualified name denotes the
column of the table of that label, and a name by itself that of the only table with such a column;
the column stands where it stands among the columns of all tables from left to right. In every row
the value there is that of the row which the table contributes, or `NULL` where a left join has
padded it. -/
theorem resolve_joinTree (opened : Opened engine) (attempts : List Attempt) (source : Source)
    (tree : source.IsJoinTree) (relation : Relation)
    (resolved : (engine.reach attempts).resolve source = .ok relation) :
    ∃ tables, (engine.reach attempts).Reads source tables ∧
      (WellNamed source.labels tables → Denotes relation.schema source.labels tables) ∧
      ∀ row ∈ relation.rows, ∃ parts, (engine.reach attempts).Contributes source parts row ∧
        ∀ (index position : Nat) (table : Relation), tables[index]? = some table →
          position < table.schema.columns.length →
          ∃ part, parts[index]? = some part ∧ (∀ own, part = some own → own ∈ table.rows) ∧
            row[offset tables index + position]? =
              match part with
              | some own => own[position]?
              | none => some .null := by
  obtain ⟨tables, reads, spans⟩ := exists_reads tree resolved
  refine ⟨tables, reads, fun wellNamed => ?_, fun row member => ?_⟩
  · exact Told.denotes ⟨opened.lawful_reach attempts, reads, wellNamed⟩ spans
  · obtain ⟨parts, contributes⟩ := exists_contributes tree resolved member
    obtain ⟨offers, rfl⟩ := contributes.layout tree reads
    refine ⟨parts, contributes, fun index position table present inside => ?_⟩
    obtain ⟨part, given, offered, same⟩ :=
      getElem?_spread (reads.aligned (opened.typed attempts)) offers present inside
    refine ⟨part, given, offered, same.trans ?_⟩
    cases part with
    | some own => rfl
    | none => simp [spread, inside]

/-- People and their pets, with all people once more beside each of them. -/
def reunion : Source :=
  .join .comma
    (.join .left (.table "people" (some "a")) (.table "pets" (some "b"))
      (some (.compare .eq (.column (some "a") "id") (.column (some "b") "owner"))))
    (.table "people" (some "c")) none

/-- A table in the middle of a join, on the right of a left join, is found by its label in any case, and
its column is `NULL` in the row of whoever has no pet. -/
theorem resolve_joinTree_reunion :
    let reunited : Relation := ⟨⟨"a_b_c", [.ofType "a_b.a.id" .int, .ofType "a_b.a.name" .text,
        .ofType "a_b.b.owner" .int, .ofType "a_b.b.name" .text, .ofType "c.id" .int,
        .ofType "c.name" .text]⟩,
      [[.int 1, .text "Ann", .null, .null, .int 1, .text "Ann"]]⟩
    Opened inMemory ∧ reunion.IsJoinTree ∧ (inMemory.reach household).resolve reunion = .ok reunited ∧
      ∃ tables, (inMemory.reach household).Reads reunion tables ∧ WellNamed reunion.labels tables ∧
        reunited.schema.resolve (qualify "B" "Name") = .ok 3 := by
  intro reunited
  obtain ⟨listsPeople, listsPets⟩ := lists_household
  have first : (inMemory.reach household).resolve (.table "people" (some "a")) = _ :=
    listsPeople.resolve_singleton (some "a")
  have second : (inMemory.reach household).resolve (.table "pets" (some "b")) = _ :=
    listsPets.resolve_singleton (some "b")
  have third : (inMemory.reach household).resolve (.table "people" (some "c")) = _ :=
    listsPeople.resolve_singleton (some "c")
  let tables : List Relation := [⟨people.renamed "a", [[.int 1, .text "Ann"]]⟩,
    ⟨pets.renamed "b", [[.int 2, .text "Rex"]]⟩, ⟨people.renamed "c", [[.int 1, .text "Ann"]]⟩]
  have reads : (inMemory.reach household).Reads reunion tables :=
    .cons first (.cons second (.cons third .nil))
  have wellNamed : WellNamed reunion.labels tables := by
    refine ⟨by decide, ?_, by decide⟩
    simp only [ne_eq, Text.fold_eq_iff]
    decide
  have resolved : (inMemory.reach household).resolve reunion = .ok reunited := by
    simp only [reunion, resolve, first, second, third, compileWhere, Relation.labelled]
    with_unfolding_all rfl
  have tree : reunion.IsJoinTree := ⟨⟨trivial, trivial⟩, trivial⟩
  obtain ⟨_, again, denotes, _⟩ := resolve_joinTree .inMemory household reunion tree reunited resolved
  cases reads.unique again
  refine ⟨.inMemory, tree, resolved, tables, reads, wellNamed, ?_⟩
  refine (denotes wellNamed).qualified 1 1 "b" _ _ rfl rfl rfl "B" "Name" ?_ ?_
  · rw [Text.sameName_iff, Text.fold_eq_iff]
    decide
  · rw [Text.sameName_iff, Text.fold_eq_iff]
    decide

end Engine

end RowStore
