import RowStore.Proofs.Engine.Bindings
import RowStore.Proofs.Schema.OwnName

/-!
Own names of the relations that sources give. Without a join all columns come from one table under the
names they have there, and a name behind the relation's own is as good as the name alone. Behind a join all
columns are qualified, however the relation is named afterwards.
-/

namespace RowStore

open Text (IsPlain qualify)

/-- The table that all columns of a source come from, if no join is in between. -/
def Source.origin? : Source → Option String
  | .table name _ => some name
  | .select ⟨_, source, _⟩ _ => source.origin?
  | .join .. => none

theorem Relation.subset_of_project {relation selected : Relation} {items : List SelectItem}
    (done : relation.project items = .ok selected) :
    selected.schema.columns ⊆ relation.schema.columns := by
  obtain ⟨positions, _, same⟩ := Outcome.bind_eq_ok_iff.mp done
  cases same
  intro column member
  obtain ⟨position, _, present⟩ := List.mem_filterMap.mp member
  exact List.mem_of_getElem? present

namespace Engine

variable {engine : Engine} {source : Source} {query : Select} {relation : Relation} {column : Column}
  {table name : String} {position : Nat}

/-- Where a column of a source comes from: it is one of a table, or qualified by a join. -/
def Stems (engine : Engine) (source : Source) (column : Column) : Prop :=
  match source.origin? with
  | some table => ∃ schema heap, engine.handle table = .ok (schema, heap) ∧ column ∈ schema.columns
  | none => ¬ IsPlain column.name

theorem stems_of_scanTable {label : Option String} {condition : Schema → Except EngineError Predicate}
    (scanned : engine.scanTable table label condition = .ok relation)
    (member : column ∈ relation.schema.columns) : engine.Stems (.table table label) column := by
  obtain ⟨⟨schema, heap⟩, handled, rest⟩ := Outcome.bind_eq_ok_iff.mp scanned
  obtain ⟨_, _, rest⟩ := Outcome.bind_eq_ok_iff.mp rest
  obtain ⟨rows, _, done⟩ := Outcome.bind_eq_ok_iff.mp rest
  cases done
  cases label <;> exact ⟨schema, heap, handled, member⟩

theorem stems_of_run_star {items : List SelectItem} {condition : Option Expr}
    (starred : isStar items = true)
    (whole : ∀ found, engine.resolve source = .ok found → ∀ column ∈ found.schema.columns,
      engine.Stems source column)
    (ran : engine.run ⟨items, source, condition⟩ = .ok relation)
    (member : column ∈ relation.schema.columns) : engine.Stems source column := by
  by_cases scanned : ∃ table label, source = .table table label
  · obtain ⟨table, label, rfl⟩ := scanned
    rw [run_star_table starred] at ran
    exact stems_of_scanTable ran member
  · obtain ⟨found, resolved, same⟩ :=
      exists_of_run_star starred (fun table label same => scanned ⟨table, label, same⟩) ran
    exact whole found resolved column (same ▸ member)

theorem stems_of_run {items : List SelectItem} {condition : Option Expr}
    (whole : ∀ found, engine.resolve source = .ok found → ∀ column ∈ found.schema.columns,
      engine.Stems source column)
    (ran : engine.run ⟨items, source, condition⟩ = .ok relation)
    (member : column ∈ relation.schema.columns) : engine.Stems source column := by
  cases starred : isStar items with
  | true => exact stems_of_run_star starred whole ran member
  | false =>
    rw [run_eq_project _ starred] at ran
    obtain ⟨found, star, done⟩ := Outcome.bind_eq_ok_iff.mp ran
    exact stems_of_run_star rfl whole star (Relation.subset_of_project done member)

/-- Sub-queries keep the columns of their sources, whatever they list and however they are named. -/
theorem stems_of_resolve : (source : Source) → (relation : Relation) →
    engine.resolve source = .ok relation → ∀ column ∈ relation.schema.columns, engine.Stems source column
  | .table table label, relation, resolved, column, member => by
    rw [resolve] at resolved
    exact stems_of_scanTable resolved member
  | .select ⟨items, source, condition⟩ label, relation, resolved, column, member => by
    rw [resolve] at resolved
    obtain ⟨answer, ran, same⟩ := Outcome.bind_eq_ok_iff.mp resolved
    cases same
    have kept : column ∈ answer.schema.columns := by cases label <;> exact member
    rw [Stems, Source.origin?]
    exact stems_of_run (stems_of_resolve source) ran kept
  | .join kind left right on, relation, resolved, column, member => by
    obtain ⟨leftRows, rightRows, _, _, _, _, _, _, rfl⟩ := resolve_join_eq_ok resolved
    rcases List.mem_append.mp member with side | side
    all_goals
      obtain ⟨inner, _, rfl⟩ := List.mem_map.mp side
      exact Text.not_isPlain_qualify _ _
termination_by source => sizeOf source

/-- The columns of a table have names without dots. -/
def PlainColumns (engine : Engine) (table : String) : Prop :=
  ∀ schema heap, engine.handle table = .ok (schema, heap) →
    ∀ column ∈ schema.columns, IsPlain column.name

/-- Without a join a column is denoted by the name behind the relation's own as it is by the name. -/
theorem owns_of_origin (resolved : engine.resolve source = .ok relation)
    (origin : source.origin? = some table) (columns : engine.PlainColumns table) (plain : IsPlain name)
    (found : relation.schema.resolve name = .ok position) : relation.schema.Owns name position := by
  have named (column : Column) (member : column ∈ relation.schema.columns) : IsPlain column.name := by
    have stems := stems_of_resolve source relation resolved column member
    rw [Stems, origin] at stems
    obtain ⟨schema, heap, handled, inside⟩ := stems
    exact columns schema heap handled column inside
  rcases Schema.named_or_ending_of_resolve plain found with direct | ⟨_, only⟩
  · exact .inl ⟨Schema.hasName_of_named? direct,
      Schema.unnamed_of_named? (Schema.named?_qualify_table named _ name)⟩
  · exact absurd (Schema.mem_endingIn.mpr ((only position).mpr rfl))
      (Schema.not_mem_endingIn_table named name position)

/-- Behind a join no column has a name without dots for its own. -/
theorem owns_iff_of_join (resolved : engine.resolve source = .ok relation)
    (joined : source.origin? = none) (plain : IsPlain name) :
    relation.schema.Owns name position ↔
      relation.schema.HasName (qualify relation.schema.table name) position ∨
        relation.schema.Ends (qualify relation.schema.table name) position := by
  refine or_iff_right ?_
  rintro ⟨⟨column, found, same⟩, _⟩
  have stems := stems_of_resolve source relation resolved column (List.mem_of_getElem? found)
  rw [Stems, joined] at stems
  exact stems (plain.of_fold ((Text.sameName_iff _ _).mp same))

/-- Where a name behind a relation's own may be used for the bare name: it finds the column of the bare name
exactly if the names of the columns say so; without a join it always does; and behind a join it does exactly
where the longer name is that of the column or the end of it. -/
theorem own_name_as_bare_iff (resolved : engine.resolve source = .ok relation)
    (single : IsPlain relation.schema.table) (plain : IsPlain name)
    (found : relation.schema.resolve name = .ok position) :
    relation.schema.OwnLookup name position ∧
    (∀ table, source.origin? = some table → engine.PlainColumns table →
      relation.schema.resolve (qualify relation.schema.table name) = .ok position) ∧
    (source.origin? = none →
      (relation.schema.resolve (qualify relation.schema.table name) = .ok position ↔
        relation.schema.HasName (qualify relation.schema.table name) position ∨
          relation.schema.Ends (qualify relation.schema.table name) position)) := by
  have lookup := Schema.ownLookup single plain found
  refine ⟨lookup, fun table origin columns => ?_, fun joined => ?_⟩
  · exact lookup.same_iff.mpr (owns_of_origin resolved origin columns plain found)
  · exact lookup.same_iff.trans (owns_iff_of_join resolved joined plain)

/-- The names of people, under another name. -/
def calledPeople : Source :=
  .select ⟨[.expr (.column none "name")], .table "people" none, none⟩ (some "p")

/-- People beside pets, under a name of their own. -/
def pairs : Source :=
  .select ⟨[.all], .join .comma (.table "people" none) (.table "pets" none) none, none⟩ (some "s")

/-- The names of people are found behind the name that is given to them. -/
theorem own_name_as_bare_people :
    let called : Relation := ⟨⟨"p", [.ofType "name" .text]⟩, [[.text "Ann"]]⟩
    (inMemory.reach household).resolve calledPeople = .ok called ∧
      calledPeople.origin? = some "people" ∧ (inMemory.reach household).PlainColumns "people" ∧
      called.schema.resolve "name" = .ok 0 ∧ called.schema.resolve "p.name" = .ok 0 := by
  intro called
  obtain ⟨listsPeople, _⟩ := lists_household
  have scanned : (inMemory.reach household).run ⟨[.all], .table "people" none, none⟩ =
      .ok ⟨people, [[.int 1, .text "Ann"]]⟩ := by
    have first := listsPeople.resolve_singleton none
    rw [resolve] at first
    rw [run_star_table rfl]
    simp only [compileWhere]
    exact first
  have resolved : (inMemory.reach household).resolve calledPeople = .ok called := by
    rw [calledPeople, resolve, run_eq_project _ rfl, scanned]
    with_unfolding_all rfl
  have columns : (inMemory.reach household).PlainColumns "people" := by
    intro schema heap handled
    obtain ⟨_, known, _⟩ := listsPeople
    cases handled.symm.trans known
    decide +kernel
  have found : called.schema.resolve "name" = .ok 0 := by decide +kernel
  obtain ⟨_, alike, _⟩ :=
    own_name_as_bare_iff resolved (by decide +kernel) (by decide +kernel : IsPlain "name") found
  exact ⟨resolved, rfl, columns, found, alike "people" rfl columns⟩

/-- A name that only one of two tables has is not found behind the name of their join. -/
theorem not_own_name_as_bare_pairs :
    ∃ relation, Opened inMemory ∧ (inMemory.reach household).resolve pairs = .ok relation ∧
      relation.schema.table = "s" ∧ relation.schema.resolve "id" = .ok 0 ∧
      relation.schema.resolve "s.id" = .error (.unknown "s.id") := by
  let paired : Relation := ⟨⟨"s", [.ofType "people.id" .int, .ofType "people.name" .text,
    .ofType "pets.owner" .int, .ofType "pets.name" .text]⟩, [[.int 1, .text "Ann", .int 2, .text "Rex"]]⟩
  obtain ⟨listsPeople, listsPets⟩ := lists_household
  have first : (inMemory.reach household).resolve (.table "people" none) = _ :=
    listsPeople.resolve_singleton none
  have second : (inMemory.reach household).resolve (.table "pets" none) = _ :=
    listsPets.resolve_singleton none
  have resolved : (inMemory.reach household).resolve pairs = .ok paired := by
    rw [pairs, resolve, run]
    case x_1 => nofun
    simp only [resolve, first, second, compileWhere, Relation.labelled]
    with_unfolding_all rfl
  exact ⟨paired, .inMemory, resolved, rfl, by decide +kernel, by decide +kernel⟩

end Engine

end RowStore
