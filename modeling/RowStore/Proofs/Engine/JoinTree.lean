import RowStore.Proofs.Engine.Aligned
import RowStore.Proofs.Engine.Lawful
import RowStore.Proofs.Schema.Spanning

/-!
Sources that are built from tables by joins. The columns of such a source are those of its tables from
left to right, and so are the values of its rows: each row is put together from a row of every table,
or from the `NULL`s that a left join puts in its place.
-/

namespace RowStore

open Text (IsPlain sameName qualify)

namespace Source

/-- The tables of a source from left to right, each with its label. -/
def tables : Source → List (String × Option String)
  | .table name label => [(name, label)]
  | .select _ _ => []
  | .join _ left right _ => left.tables ++ right.tables

/-- A source that is built from tables by joins alone. -/
def IsJoinTree : Source → Prop
  | .table _ _ => True
  | .select _ _ => False
  | .join _ left right _ => left.IsJoinTree ∧ right.IsJoinTree

/-- The names under which the tables of a source stand in it. -/
def labels (source : Source) : List String := source.tables.map fun entry => entry.2.getD entry.1

end Source

namespace Relation

variable {kind : JoinKind} {predicate : Predicate} {right : Relation} {row : Row}

/-- How a row of a join comes about. -/
inductive Joins (kind : JoinKind) (predicate : Predicate) (right : Relation) (row : Row) : Row → Prop where
  | met (other : Row) (member : other ∈ right.rows) (accepted : predicate.test (row ++ other) = .ok true) :
      Joins kind predicate right row (row ++ other)
  | unmet (outer : kind = .left)
      (rejected : ∀ other ∈ right.rows, predicate.test (row ++ other) = .ok false) :
      Joins kind predicate right row (row ++ List.replicate right.schema.columns.length .null)

theorem joins_of_block {rows : List Row} (done : block kind predicate right row = .ok rows) :
    ∀ joined ∈ rows, Joins kind predicate right row joined := by
  obtain ⟨kept, found, rest⟩ := Outcome.bind_eq_ok_iff.mp done
  rw [keepRows_eq] at found
  cases verdicts : (right.rows.map (row ++ ·)).mapM predicate.test with
  | error error =>
    rw [verdicts] at found
    cases found
  | ok _ =>
    rw [verdicts] at found
    cases found
    have tested (other : Row) (member : other ∈ right.rows) :
        ∃ accepted, predicate.test (row ++ other) = .ok accepted :=
      Outcome.exists_of_mapM_eq_ok verdicts (List.mem_map_of_mem member)
    have accepts (other : Row) (member : other ∈ right.rows) :
        predicate.test (row ++ other) = .ok (predicate.accepts (row ++ other)) := by
      obtain ⟨accepted, ran⟩ := tested other member
      rw [Predicate.accepts, ran]
      rfl
    split at rest
    · rename_i outer
      cases rest
      obtain ⟨empty, left⟩ := Bool.and_eq_true_iff.mp outer
      intro joined member
      rw [List.mem_singleton.mp member]
      refine .unmet (by simpa using left) fun other among => ?_
      rw [accepts other among]
      have none := List.filter_eq_nil_iff.mp (List.isEmpty_iff.mp empty) (row ++ other)
        (List.mem_map_of_mem among)
      rw [Bool.not_eq_true] at none
      rw [none]
    · cases rest
      intro joined member
      obtain ⟨paired, accepted⟩ := List.mem_filter.mp member
      obtain ⟨other, among, rfl⟩ := List.mem_map.mp paired
      exact .met other among ((accepts other among).trans (congrArg _ accepted))

end Relation

namespace Engine

variable {engine : Engine} {source left right : Source} {kind : JoinKind} {condition : Option Expr}
  {relation : Relation} {tables : List Relation} {row : Row}

theorem resolve_join_eq_ok (resolved : engine.resolve (.join kind left right condition) = .ok relation) :
    ∃ leftRows rightRows predicate blocks, engine.resolve left = .ok leftRows ∧
      engine.resolve right = .ok rightRows ∧
      engine.compileWhere (Relation.joinSchema leftRows rightRows) condition = .ok predicate ∧
      leftRows.rows.mapM (Relation.block kind predicate rightRows) = .ok blocks ∧
      relation = ⟨Relation.joinSchema leftRows rightRows, blocks.flatten⟩ := by
  rw [resolve] at resolved
  split at resolved
  · cases resolved
  · obtain ⟨leftRows, resolvedLeft, rest⟩ := Outcome.bind_eq_ok_iff.mp resolved
    obtain ⟨rightRows, resolvedRight, rest⟩ := Outcome.bind_eq_ok_iff.mp rest
    obtain ⟨predicate, compiled, rest⟩ := Outcome.bind_eq_ok_iff.mp rest
    obtain ⟨blocks, done, same⟩ := Outcome.bind_eq_ok_iff.mp (Outcome.mapError_eq_ok_iff.mp rest)
    cases same
    exact ⟨leftRows, rightRows, predicate, blocks, resolvedLeft, resolvedRight, compiled, done, rfl⟩

/-- The tables of a source as they are scanned. -/
def Reads (engine : Engine) (source : Source) (tables : List Relation) : Prop :=
  List.Forall₂ (fun entry table => engine.resolve (.table entry.1 entry.2) = .ok table) source.tables tables

/-- The columns of some tables from left to right. -/
def fieldsOf (tables : List Relation) : List Field := tables.flatMap (·.schema.fields)

theorem fieldsOf_cons (table : Relation) (tables : List Relation) :
    fieldsOf (table :: tables) = table.schema.fields ++ fieldsOf tables := rfl

/-- The columns of a join tree are those of its tables from left to right. -/
theorem exists_reads (tree : source.IsJoinTree) (resolved : engine.resolve source = .ok relation) :
    ∃ tables, engine.Reads source tables ∧ relation.schema.Spans (fieldsOf tables) := by
  induction source using Source.tables.induct generalizing relation with
  | case1 name label =>
    refine ⟨[relation], .cons resolved .nil, ?_⟩
    rw [fieldsOf, List.flatMap_singleton]
    exact .table
  | case2 query label => exact tree.elim
  | case3 kind left right condition first second =>
    obtain ⟨leftRows, rightRows, predicate, blocks, resolvedLeft, resolvedRight, _, _, rfl⟩ :=
      resolve_join_eq_ok resolved
    obtain ⟨tables, reads, spans⟩ := first tree.1 resolvedLeft
    obtain ⟨others, readsOthers, spansOthers⟩ := second tree.2 resolvedRight
    refine ⟨tables ++ others, List.rel_append reads readsOthers, ?_⟩
    rw [fieldsOf, List.flatMap_append]
    exact spans.merge spansOthers

/-- What the tables of a source, from left to right, contribute to one of its rows. A table on the right
of a left join contributes nothing to a row of the left side that meets no row of the right. -/
inductive Contributes (engine : Engine) : Source → List (Option Row) → Row → Prop where
  | table (name : String) (label : Option String) (relation : Relation) (row : Row)
      (resolved : engine.resolve (.table name label) = .ok relation) (member : row ∈ relation.rows) :
      Contributes engine (.table name label) [some row] row
  | met (kind : JoinKind) (left right : Source) (condition : Option Expr)
      (leftRows rightRows : Relation) (predicate : Predicate) (parts others : List (Option Row))
      (row other : Row) (resolvedLeft : engine.resolve left = .ok leftRows)
      (resolvedRight : engine.resolve right = .ok rightRows)
      (compiled : engine.compileWhere (Relation.joinSchema leftRows rightRows) condition = .ok predicate)
      (first : Contributes engine left parts row) (second : Contributes engine right others other)
      (accepted : predicate.test (row ++ other) = .ok true) :
      Contributes engine (.join kind left right condition) (parts ++ others) (row ++ other)
  | unmet (left right : Source) (condition : Option Expr) (leftRows rightRows : Relation)
      (predicate : Predicate) (parts : List (Option Row)) (row : Row)
      (resolvedLeft : engine.resolve left = .ok leftRows)
      (resolvedRight : engine.resolve right = .ok rightRows)
      (compiled : engine.compileWhere (Relation.joinSchema leftRows rightRows) condition = .ok predicate)
      (first : Contributes engine left parts row)
      (rejected : ∀ other ∈ rightRows.rows, predicate.test (row ++ other) = .ok false) :
      Contributes engine (.join .left left right condition)
        (parts ++ List.replicate right.tables.length none)
        (row ++ List.replicate rightRows.schema.columns.length .null)

/-- Every row of a join tree is put together from rows of its tables. -/
theorem exists_contributes (tree : source.IsJoinTree) (resolved : engine.resolve source = .ok relation)
    (member : row ∈ relation.rows) : ∃ parts, engine.Contributes source parts row := by
  induction source using Source.tables.induct generalizing relation row with
  | case1 name label => exact ⟨_, .table name label relation row resolved member⟩
  | case2 query label => exact tree.elim
  | case3 kind left right condition first second =>
    obtain ⟨leftRows, rightRows, predicate, blocks, resolvedLeft, resolvedRight, compiled, done, rfl⟩ :=
      resolve_join_eq_ok resolved
    obtain ⟨rows, among, inside⟩ := List.mem_flatten.mp member
    obtain ⟨row, memberLeft, made⟩ := Outcome.exists_of_mem_mapM done among
    obtain ⟨parts, contributes⟩ := first tree.1 resolvedLeft memberLeft
    cases Relation.joins_of_block made _ inside with
    | met other memberRight accepted =>
      obtain ⟨others, contributesRight⟩ := second tree.2 resolvedRight memberRight
      exact ⟨_, .met kind left right condition leftRows rightRows predicate parts others row other
        resolvedLeft resolvedRight compiled contributes contributesRight accepted⟩
    | unmet outer rejected =>
      subst outer
      exact ⟨_, .unmet left right condition leftRows rightRows predicate parts row resolvedLeft
        resolvedRight compiled contributes rejected⟩

/-- The tables of a join are those of its left side and those of its right. -/
theorem Reads.split (reads : engine.Reads (.join kind left right condition) tables) :
    ∃ first second, tables = first ++ second ∧ engine.Reads left first ∧ engine.Reads right second := by
  have flipped := List.Forall₂.flip reads
  refine ⟨tables.take left.tables.length, tables.drop left.tables.length,
    (List.take_append_drop _ _).symm, ?_, ?_⟩
  · exact (List.forall₂_take_append tables left.tables right.tables flipped).flip
  · exact (List.forall₂_drop_append tables left.tables right.tables flipped).flip

theorem Reads.unique {others : List Relation} (reads : engine.Reads source tables)
    (again : engine.Reads source others) : tables = others := by
  refine List.right_unique_forall₂' (fun entry table other found foundAgain => ?_) reads again
  exact Except.ok.inj (found.symm.trans foundAgain)

/-- The rows of a scanned table follow its schema. -/
theorem Reads.aligned (reads : engine.Reads source tables) (typed : engine.Typed) :
    ∀ table ∈ tables, table.Aligned := by
  intro table member
  obtain ⟨index, found⟩ := List.mem_iff_getElem?.mp member
  obtain ⟨inside, rfl⟩ := List.getElem?_eq_some_iff.mp found
  have there : index < source.tables.length := reads.length_eq ▸ inside
  have avoids := typed.resolve (.table source.tables[index].1 source.tables[index].2)
  have scanned : engine.resolve (.table source.tables[index].1 source.tables[index].2) = _ :=
    reads.get there inside
  rwa [scanned] at avoids

/-- The values of a table in a row: those of one of its rows, or a `NULL` for each of its columns. -/
def spread (table : Relation) (part : Option Row) : Row :=
  part.getD (List.replicate table.schema.columns.length .null)

theorem spread_none (tables : List Relation) :
    (List.zipWith spread tables (List.replicate tables.length none)).flatten =
      List.replicate (fieldsOf tables).length .null := by
  induction tables with
  | nil => rfl
  | cons table rest ih =>
    rw [List.length_cons, List.replicate_succ, List.zipWith_cons_cons, List.flatten_cons, ih,
      fieldsOf_cons, List.length_append, List.replicate_add, Schema.fields, List.length_map]
    rfl

/-- What a table may contribute: one of its rows, or nothing. -/
def Offers (table : Relation) (part : Option Row) : Prop := ∀ row, part = some row → row ∈ table.rows

theorem offers_none (tables : List Relation) :
    List.Forall₂ Offers tables (List.replicate tables.length none) := by
  induction tables with
  | nil => exact .nil
  | cons table rest ih => exact .cons (fun _ never => by cases never) ih

/-- A row of a join tree is what its tables contribute, one behind the other. -/
theorem Contributes.layout {parts : List (Option Row)} (tree : source.IsJoinTree)
    (contributes : engine.Contributes source parts row) (reads : engine.Reads source tables) :
    List.Forall₂ Offers tables parts ∧ row = (List.zipWith spread tables parts).flatten := by
  induction contributes generalizing tables with
  | table name label relation row resolved member =>
    cases reads.unique (.cons resolved .nil : engine.Reads (.table name label) [relation])
    refine ⟨.cons ?_ .nil, (List.append_nil _).symm⟩
    rintro _ ⟨⟩
    exact member
  | met kind left right condition leftRows rightRows predicate parts others row other resolvedLeft
      resolvedRight compiled first second accepted firstLayout secondLayout =>
    obtain ⟨tables, more, rfl, readsLeft, readsRight⟩ := reads.split
    obtain ⟨offers, rfl⟩ := firstLayout tree.1 readsLeft
    obtain ⟨offersRight, rfl⟩ := secondLayout tree.2 readsRight
    refine ⟨List.rel_append offers offersRight, ?_⟩
    rw [List.zipWith_append offers.length_eq, List.flatten_append]
  | unmet left right condition leftRows rightRows predicate parts row resolvedLeft resolvedRight compiled
      first rejected firstLayout =>
    obtain ⟨tables, more, rfl, readsLeft, readsRight⟩ := reads.split
    obtain ⟨offers, rfl⟩ := firstLayout tree.1 readsLeft
    obtain ⟨others, readsOthers, spans⟩ := exists_reads tree.2 resolvedRight
    cases readsRight.unique readsOthers
    have count : right.tables.length = more.length := readsRight.length_eq
    rw [count]
    refine ⟨List.rel_append offers (offers_none more), ?_⟩
    rw [List.zipWith_append offers.length_eq, List.flatten_append, spread_none, spans.length_eq]

/-- The number of columns of the tables before one. -/
def offset (tables : List Relation) (index : Nat) : Nat := (fieldsOf (tables.take index)).length

variable {table : Relation} {index position : Nat}

theorem offset_zero (tables : List Relation) : offset tables 0 = 0 := rfl

theorem offset_succ (table : Relation) (tables : List Relation) (index : Nat) :
    offset (table :: tables) (index + 1) = table.schema.columns.length + offset tables index := by
  rw [offset, List.take_succ_cons, fieldsOf_cons, List.length_append, Schema.fields, List.length_map]
  rfl

/-- Where a column of a table stands among the columns of all tables. -/
theorem getElem?_fieldsOf {column : Column} (found : tables[index]? = some table)
    (inside : table.schema.columns[position]? = some column) :
    (fieldsOf tables)[offset tables index + position]? = some ⟨table.schema.table, column.name⟩ := by
  have field : table.schema.fields[position]? = some ⟨table.schema.table, column.name⟩ :=
    Schema.getElem?_fields.mpr ⟨column, inside, rfl⟩
  induction tables generalizing index with
  | nil => cases found
  | cons first rest ih =>
    rw [fieldsOf_cons]
    cases index with
    | zero =>
      cases found
      have there := (List.getElem?_eq_some_iff.mp field).1
      rw [offset_zero, Nat.zero_add, List.getElem?_append_left there, field]
    | succ index =>
      have width : first.schema.fields.length = first.schema.columns.length := List.length_map _
      rw [offset_succ, Nat.add_assoc, List.getElem?_append_right (by omega), width,
        Nat.add_sub_cancel_left]
      exact ih found

/-- Every column of the tables together is a column of one of them. -/
theorem exists_of_getElem?_fieldsOf {field : Field} (found : (fieldsOf tables)[position]? = some field) :
    ∃ index table inner column, tables[index]? = some table ∧
      table.schema.columns[inner]? = some column ∧ position = offset tables index + inner ∧
      field = ⟨table.schema.table, column.name⟩ := by
  induction tables generalizing position with
  | nil => simp [fieldsOf] at found
  | cons first rest ih =>
    rw [fieldsOf_cons, List.getElem?_append] at found
    split at found
    · obtain ⟨column, present, rfl⟩ := Schema.getElem?_fields.mp found
      exact ⟨0, first, position, column, rfl, present, (Nat.zero_add _).symm, rfl⟩
    · rename_i beyond
      obtain ⟨index, table, inner, column, present, inside, same, rfl⟩ := ih found
      refine ⟨index + 1, table, inner, column, present, inside, ?_, rfl⟩
      have width : first.schema.fields.length = first.schema.columns.length := List.length_map _
      rw [offset_succ]
      omega

/-- The values of a table stand in a row where its columns stand among those of all tables. -/
theorem getElem?_spread {parts : List (Option Row)} (aligned : ∀ table ∈ tables, table.Aligned)
    (offers : List.Forall₂ Offers tables parts) (found : tables[index]? = some table)
    (inside : position < table.schema.columns.length) :
    ∃ part, parts[index]? = some part ∧ Offers table part ∧
      (List.zipWith spread tables parts).flatten[offset tables index + position]? =
        (spread table part)[position]? := by
  induction offers generalizing index with
  | nil => cases found
  | @cons first part rest others offered later ih =>
    have width : (spread first part).length = first.schema.columns.length := by
      cases part with
      | none => exact List.length_replicate
      | some row => exact (aligned first List.mem_cons_self row (offered row rfl)).length_eq
    rw [List.zipWith_cons_cons, List.flatten_cons]
    cases index with
    | zero =>
      cases found
      refine ⟨part, rfl, offered, ?_⟩
      rw [offset_zero, Nat.zero_add, List.getElem?_append_left (by omega)]
    | succ index =>
      obtain ⟨part, present, offers, same⟩ :=
        ih (fun table member => aligned table (List.mem_cons_of_mem _ member)) found
      refine ⟨part, present, offers, ?_⟩
      rw [offset_succ, Nat.add_assoc, List.getElem?_append_right (by omega), width,
        Nat.add_sub_cancel_left, same]

/-- A scanned table stands under its label, or else under its own name, and its columns have names of
their own. -/
theorem schema_of_scanTable {name : String} {label : Option String}
    {condition : Schema → Except EngineError Predicate}
    (lawful : Catalog.Lawful engine.catalog.tables)
    (scanned : engine.scanTable name label condition = .ok table) :
    Text.fold table.schema.table = Text.fold (label.getD name) ∧
      table.schema.columns.Pairwise fun first second => Text.fold first.name ≠ Text.fold second.name := by
  rw [scanTable] at scanned
  obtain ⟨⟨schema, heap⟩, handled, rest⟩ := Outcome.bind_eq_ok_iff.mp scanned
  obtain ⟨known, _⟩ := (handle_eq_ok_iff _ _ _ _).mp handled
  have named := lawful.keyed _ schema known
  have distinct := Schema.pairwise_of_check (lawful.checked _ schema known)
  obtain ⟨_, _, rest⟩ := Outcome.bind_eq_ok_iff.mp rest
  obtain ⟨rows, _, done⟩ := Outcome.bind_eq_ok_iff.mp rest
  cases done
  cases label with
  | none => exact ⟨named.symm, distinct⟩
  | some label => exact ⟨rfl, distinct⟩

theorem schema_of_resolve {name : String} {label : Option String}
    (lawful : Catalog.Lawful engine.catalog.tables)
    (resolved : engine.resolve (.table name label) = .ok table) :
    Text.fold table.schema.table = Text.fold (label.getD name) ∧
      table.schema.columns.Pairwise fun first second => Text.fold first.name ≠ Text.fold second.name := by
  rw [resolve] at resolved
  exact schema_of_scanTable lawful resolved

end Engine

end RowStore
