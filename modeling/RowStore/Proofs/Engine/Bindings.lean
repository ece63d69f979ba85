import RowStore.Proofs.Engine.JoinTree
import RowStore.Proofs.Engine.Listing
import RowStore.Proofs.Schema.Ambiguity

/-!
Which sources and queries tell their columns apart. A table does; a join does if its sides do and have no
column name in common; a select list does if it lists no column name twice. Exactly in the relations
of those is no name bound to one of several columns.
-/

namespace RowStore

/-- Lists that correspond are pairwise related alike. -/
theorem pairwise_iff_of_forall₂ {First Second : Type} {stands : First → Second → Prop}
    {apart : Second → Second → Prop} {items : List First} {answers : List Second}
    (unique : ∀ item answer other, stands item answer → stands item other → answer = other)
    (each : List.Forall₂ stands items answers) :
    answers.Pairwise apart ↔ items.Pairwise fun first second =>
      ∀ answer other, stands first answer → stands second other → apart answer other := by
  simp only [List.pairwise_iff_getElem]
  have length_eq := each.length_eq
  constructor
  · intro pairs first second inside within before answer other standsFirst standsSecond
    rw [unique _ _ _ standsFirst (each.get inside (length_eq ▸ inside)),
      unique _ _ _ standsSecond (each.get within (length_eq ▸ within))]
    exact pairs first second _ _ before
  · intro pairs first second inside within before
    exact pairs first second (length_eq ▸ inside) (length_eq ▸ within) before _ _
      (each.get _ inside) (each.get _ within)

namespace Relation

variable {relation selected : Relation} {items : List SelectItem}

/-- The column that an item of a select list stands for. -/
def Selects (schema : Schema) (item : SelectItem) (column : Column) : Prop :=
  ∃ position, itemColumn schema item = .ok position ∧ schema.columns[position]? = some column

theorem Selects.unique {schema : Schema} {item : SelectItem} {column other : Column}
    (selects : Selects schema item column) (again : Selects schema item other) : column = other := by
  obtain ⟨position, found, present⟩ := selects
  obtain ⟨_, foundAgain, presentAgain⟩ := again
  cases found.symm.trans foundAgain
  exact Option.some.inj (present.symm.trans presentAgain)

/-- The columns of a select list, item by item. -/
theorem forall₂_of_project (done : relation.project items = .ok selected) :
    List.Forall₂ (Selects relation.schema) items selected.schema.columns := by
  obtain ⟨positions, found, same⟩ := Outcome.bind_eq_ok_iff.mp done
  cases same
  have inside := lt_of_itemColumns found
  have each := (Outcome.mapM_eq_ok_iff _ _ _).mp found
  clear found done
  induction each with
  | nil => exact .nil
  | @cons item position _ _ first _ ih =>
    have there := List.getElem?_eq_getElem (inside position List.mem_cons_self)
    rw [List.filterMap_cons_some there]
    exact .cons ⟨position, first, there⟩ (ih fun other member => inside other (List.mem_cons_of_mem _ member))

/-- No two items of a select list stand for columns of one name. -/
def ListsApart (schema : Schema) (items : List SelectItem) : Prop :=
  items.Pairwise fun first second => ∀ column other, Selects schema first column →
    Selects schema second other → Text.fold column.name ≠ Text.fold other.name

theorem distinct_project_iff (done : relation.project items = .ok selected) :
    selected.schema.Distinct ↔ ListsApart relation.schema items :=
  pairwise_iff_of_forall₂ (fun _ _ _ selects again => selects.unique again) (forall₂_of_project done)

end Relation

namespace Engine

variable {engine : Engine} {source : Source} {query : Select} {relation : Relation}

mutual

/-- Whether a source tells its columns apart. A join does not if a column of one side has, under the name
of the side, the name of a column of the other. -/
def Discerns (engine : Engine) : Source → Prop
  | .table _ _ => True
  | .select query _ => engine.DiscernsAnswer query
  | .join _ left right _ => engine.Discerns left ∧ engine.Discerns right ∧
      ∀ leftRows rightRows, engine.resolve left = .ok leftRows → engine.resolve right = .ok rightRows →
        leftRows.schema.Apart rightRows.schema
termination_by source => sizeOf source

/-- Whether a query tells the columns of its answer apart. A select list does not if two of its items
stand for columns of one name. -/
def DiscernsAnswer (engine : Engine) : Select → Prop
  | ⟨items, source, condition⟩ =>
    if isStar items then engine.Discerns source
    else ∀ whole, engine.run ⟨[.all], source, condition⟩ = .ok whole →
      Relation.ListsApart whole.schema items
termination_by query => sizeOf query

end

/-- With a star a query has the columns of its table. -/
theorem run_star_table {items : List SelectItem} (starred : isStar items = true) (table : String)
    (label : Option String) (condition : Option Expr) :
    engine.run ⟨items, .table table label, condition⟩ =
      engine.scanTable table label (engine.compileWhere · condition) := by
  rw [run]
  simp only [starred, if_true]
  exact bind_pure _

/-- With a star a query has the columns of its source. -/
theorem exists_of_run_star {items : List SelectItem} {condition : Option Expr}
    (starred : isStar items = true) (composed : ∀ table label, source ≠ .table table label)
    (ran : engine.run ⟨items, source, condition⟩ = .ok relation) :
    ∃ found, engine.resolve source = .ok found ∧ relation.schema = found.schema := by
  rw [run] at ran
  case x_1 => exact composed
  simp only [starred, if_true] at ran
  obtain ⟨found, resolved, rest⟩ := Outcome.bind_eq_ok_iff.mp ran
  obtain ⟨predicate, _, rest⟩ := Outcome.bind_eq_ok_iff.mp rest
  obtain ⟨kept, filtered, same⟩ := Outcome.bind_eq_ok_iff.mp rest
  cases same
  obtain ⟨rows, _, done⟩ := Outcome.bind_eq_ok_iff.mp (Outcome.mapError_eq_ok_iff.mp filtered)
  cases done
  exact ⟨found, resolved, rfl⟩

mutual

/-- The columns of a source have names of their own exactly if it tells them apart. -/
theorem distinct_iff_discerns (lawful : Catalog.Lawful engine.catalog.tables) (source : Source)
    (relation : Relation) (resolved : engine.resolve source = .ok relation) :
    relation.schema.Distinct ↔ engine.Discerns source := by
  cases source with
  | table table label =>
    rw [Discerns]
    exact iff_of_true (schema_of_resolve lawful resolved).2 trivial
  | select query label =>
    rw [resolve] at resolved
    obtain ⟨answer, ran, same⟩ := Outcome.bind_eq_ok_iff.mp resolved
    cases same
    rw [Discerns, ← distinct_iff_discernsAnswer lawful query answer ran]
    cases label with
    | none => exact Iff.rfl
    | some label => exact Schema.distinct_congr rfl
  | join kind left right on =>
    obtain ⟨leftRows, rightRows, _, _, resolvedLeft, resolvedRight, _, _, rfl⟩ :=
      resolve_join_eq_ok resolved
    rw [Discerns, ← distinct_iff_discerns lawful left leftRows resolvedLeft,
      ← distinct_iff_discerns lawful right rightRows resolvedRight]
    refine Schema.distinct_merge_iff.trans (and_congr_right fun _ => and_congr_right fun _ => ?_)
    constructor
    · intro apart first second found foundRight
      cases found.symm.trans resolvedLeft
      cases foundRight.symm.trans resolvedRight
      exact apart
    · exact fun apart => apart leftRows rightRows resolvedLeft resolvedRight
termination_by sizeOf source

/-- The columns of an answer have names of their own exactly if the query tells them apart. -/
theorem distinct_iff_discernsAnswer (lawful : Catalog.Lawful engine.catalog.tables) :
    (query : Select) → (relation : Relation) → engine.run query = .ok relation →
      (relation.schema.Distinct ↔ engine.DiscernsAnswer query)
  | ⟨items, source, condition⟩, relation, ran => by
    rw [DiscernsAnswer]
    cases starred : isStar items with
    | false =>
      rw [run_eq_project _ starred] at ran
      obtain ⟨whole, found, done⟩ := Outcome.bind_eq_ok_iff.mp ran
      rw [if_neg Bool.false_ne_true, Relation.distinct_project_iff done]
      constructor
      · intro apart other again
        cases found.symm.trans again
        exact apart
      · exact fun apart => apart whole found
    | true =>
      rw [if_pos rfl]
      by_cases scanned : ∃ table label, source = .table table label
      · obtain ⟨table, label, rfl⟩ := scanned
        rw [run_star_table starred] at ran
        rw [Discerns]
        exact iff_of_true (schema_of_scanTable lawful ran).2 trivial
      · have composed : ∀ table label, source ≠ .table table label :=
          fun table label same => scanned ⟨table, label, same⟩
        obtain ⟨found, resolved, same⟩ := exists_of_run_star starred composed ran
        rw [same]
        exact distinct_iff_discerns lawful source found resolved
termination_by query => sizeOf query

end

/-- A lookup that is never silent about a second column: each name is bound once unless it ties two columns
of a schema, and all names are bound once exactly in the relations of the sources and queries that tell
their columns apart. -/
theorem boundOnce_iff_discerns (opened : Opened engine) (attempts : List Attempt) :
    (∀ (schema : Schema) (name : String), schema.BoundOnce name ↔ ¬ schema.Tied name) ∧
    (∀ source relation, (engine.reach attempts).resolve source = .ok relation →
      ((∀ name, relation.schema.BoundOnce name) ↔ (engine.reach attempts).Discerns source)) ∧
    ∀ query relation, (engine.reach attempts).run query = .ok relation →
      ((∀ name, relation.schema.BoundOnce name) ↔ (engine.reach attempts).DiscernsAnswer query) := by
  have lawful := opened.lawful_reach attempts
  refine ⟨fun schema name => Schema.boundOnce_iff_not_tied, fun source relation resolved => ?_,
    fun query relation ran => ?_⟩
  · rw [Schema.forall_boundOnce_iff_distinct]
    exact distinct_iff_discerns lawful source relation resolved
  · rw [Schema.forall_boundOnce_iff_distinct]
    exact distinct_iff_discernsAnswer lawful query relation ran

/-- Everybody beside every row of a table, under a condition that compares the number of people with
itself. -/
def beside (table : String) : Source :=
  .join .inner (.table "people" none) (.table table none)
    (some (.compare .eq (.column (some "people") "id") (.column (some "people") "id")))

/-- People beside pets: the tables have names of their own, so every name is bound to one column. -/
theorem boundOnce_beside_pets :
    let paired : Relation := ⟨⟨"people_pets", [.ofType "people.id" .int, .ofType "people.name" .text,
      .ofType "pets.owner" .int, .ofType "pets.name" .text]⟩, [[.int 1, .text "Ann", .int 2, .text "Rex"]]⟩
    Opened inMemory ∧ (inMemory.reach household).resolve (beside "pets") = .ok paired ∧
      (inMemory.reach household).Discerns (beside "pets") ∧ ∀ name, paired.schema.BoundOnce name := by
  intro paired
  obtain ⟨listsPeople, listsPets⟩ := lists_household
  have first : (inMemory.reach household).resolve (.table "people" none) = _ :=
    listsPeople.resolve_singleton none
  have second : (inMemory.reach household).resolve (.table "pets" none) = _ :=
    listsPets.resolve_singleton none
  have resolved : (inMemory.reach household).resolve (beside "pets") = .ok paired := by
    simp only [beside, resolve, first, second, compileWhere, Relation.labelled]
    with_unfolding_all rfl
  have discerns : (inMemory.reach household).Discerns (beside "pets") := by
    rw [beside, Discerns, Discerns, Discerns]
    refine ⟨trivial, trivial, fun leftRows rightRows found foundRight => ?_⟩
    cases found.symm.trans first
    cases foundRight.symm.trans second
    simp only [Schema.Apart, ne_eq, Text.fold_eq_iff]
    decide
  exact ⟨.inMemory, resolved, discerns,
    ((boundOnce_iff_discerns .inMemory household).2.1 _ paired resolved).mpr discerns⟩

/-- People beside people: the name of either column is bound to the first one, and no lookup fails. -/
theorem not_boundOnce_beside_people :
    ∃ paired, Opened inMemory ∧ (inMemory.reach household).resolve (beside "people") = .ok paired ∧
      paired.schema.HasName "people.id" 0 ∧ paired.schema.HasName "people.id" 2 ∧
      paired.schema.resolve "people.id" = .ok 0 ∧ ¬ paired.schema.BoundOnce "people.id" := by
  let paired : Relation := ⟨⟨"people_people", [.ofType "people.id" .int, .ofType "people.name" .text,
    .ofType "people.id" .int, .ofType "people.name" .text]⟩, [[.int 1, .text "Ann", .int 1, .text "Ann"]]⟩
  obtain ⟨listsPeople, _⟩ := lists_household
  have first : (inMemory.reach household).resolve (.table "people" none) = _ :=
    listsPeople.resolve_singleton none
  have resolved : (inMemory.reach household).resolve (beside "people") = .ok paired := by
    simp only [beside, resolve, first, compileWhere, Relation.labelled]
    with_unfolding_all rfl
  have has : paired.schema.HasName "people.id" 0 := ⟨_, rfl, by decide +kernel⟩
  have alike : paired.schema.HasName "people.id" 2 := ⟨_, rfl, by decide +kernel⟩
  have bound : paired.schema.resolve "people.id" = .ok 0 := by decide +kernel
  refine ⟨paired, .inMemory, resolved, has, alike, bound, fun once => ?_⟩
  cases (once.reported 0 2 (by decide) (.named has alike)).symm.trans bound

end Engine

end RowStore
