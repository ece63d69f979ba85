import RowStore.Proofs.Engine.Rewriting

/-!
Left joins beside inner joins. Both test the same pairs of rows, so that they fail alike. A left row
stands in both beside its partners, and one without partners stays in the left join only, beside
`NULL`s.
-/

namespace RowStore

namespace Relation

variable {predicate : Predicate} {left right : Relation}

/-- The pairs of a left row and the right rows that a condition accepts with it. -/
def joined (predicate : Predicate) (right : Relation) (row : Row) : List Row :=
  (right.rows.filter fun other => predicate.accepts (row ++ other)).map (row ++ ·)

/-- A left row that meets no right row. -/
def lonely (predicate : Predicate) (right : Relation) (row : Row) : Bool :=
  (joined predicate right row).isEmpty

/-- A left row beside `NULL` for every column of the right. -/
def padded (right : Relation) (row : Row) : Row :=
  row ++ List.replicate right.schema.columns.length .null

/-- What becomes of a left row in a join. -/
def remains (kind : JoinKind) (predicate : Predicate) (right : Relation) (row : Row) : List Row :=
  if lonely predicate right row && kind == .left then [padded right row]
  else joined predicate right row

/-- The tests of a left row with the right rows decide whether its part of a join fails. -/
theorem block_eq (kind : JoinKind) (predicate : Predicate) (right : Relation) (row : Row) :
    block kind predicate right row = do
      let _ ← (right.rows.map (row ++ ·)).mapM predicate.test
      return remains kind predicate right row := by
  have kept : (right.rows.map (row ++ ·)).filter predicate.accepts = joined predicate right row :=
    List.filter_map
  rw [block, keepRows_eq, kept, remains, lonely]
  cases (right.rows.map (row ++ ·)).mapM predicate.test with
  | error error => rfl
  | ok verdicts =>
    change (if _ then _ else _) = Except.ok (if _ then _ else _)
    split <;> rfl

/-- The kind of a join has no part in whether it fails. -/
theorem join_eq (kind : JoinKind) (predicate : Predicate) (left right : Relation) :
    join kind predicate left right =
      (left.rows.mapM fun row => (right.rows.map (row ++ ·)).mapM predicate.test).map fun _ =>
        ⟨joinSchema left right, left.rows.flatMap (remains kind predicate right)⟩ := by
  rw [join, funext (block_eq kind predicate right), Outcome.mapM_checked]
  cases left.rows.mapM fun row => (right.rows.map (row ++ ·)).mapM predicate.test <;> rfl

/-- The left join of two relations beside their inner join. Row by row of the left side, in its order, it
has the rows that the inner join has of it, or the row beside `NULL`s if there are none. Without those it is
the inner join; each left row is in it, and it is larger by the number of lonely rows. -/
structure Completes (predicate : Predicate) (left right inner outer : Relation) : Prop where
  inner_schema : inner.schema = joinSchema left right
  outer_schema : outer.schema = joinSchema left right
  tested : ∀ row ∈ left.rows, ∀ other ∈ right.rows,
    ∃ verdict, predicate.test (row ++ other) = .ok verdict
  inner_rows : inner.rows = left.rows.flatMap (joined predicate right)
  outer_rows : outer.rows = left.rows.flatMap fun row =>
    if lonely predicate right row then [padded right row] else joined predicate right row
  marked : ∃ marks : List (Row × Bool), marks.map Prod.fst = outer.rows ∧
    (marks.filter fun mark => !mark.2).map Prod.fst = inner.rows ∧
    (marks.filter fun mark => mark.2).map Prod.fst =
      (left.rows.filter (lonely predicate right)).map (padded right)
  represented : ∀ row ∈ left.rows, ∃ rest, row ++ rest ∈ outer.rows
  length_eq : outer.rows.length = inner.rows.length + left.rows.countP (lonely predicate right)

/-- What becomes of a left row in a left join, with a mark where it is beside `NULL`s for want of a partner.
The rows alone do not tell: a right row of `NULL`s may be a partner. -/
def marks (predicate : Predicate) (right : Relation) (row : Row) : List (Row × Bool) :=
  if lonely predicate right row then [(padded right row, true)]
  else (joined predicate right row).map fun pair => (pair, false)

theorem map_fst_marks (predicate : Predicate) (right : Relation) (row : Row) :
    (marks predicate right row).map Prod.fst =
      if lonely predicate right row then [padded right row] else joined predicate right row := by
  rw [marks]
  split
  · rfl
  · rw [List.map_map]
    exact List.map_id _

theorem unmarked_marks (predicate : Predicate) (right : Relation) (row : Row) :
    ((marks predicate right row).filter fun mark => !mark.2).map Prod.fst =
      joined predicate right row := by
  rw [marks]
  split
  · rename_i alone
    exact (List.isEmpty_iff.mp alone).symm
  · simp [List.filter_map, Function.comp_def]

theorem marked_marks (predicate : Predicate) (right : Relation) (row : Row) :
    ((marks predicate right row).filter fun mark => mark.2).map Prod.fst =
      if lonely predicate right row then [padded right row] else [] := by
  rw [marks]
  split
  · rfl
  · simp [List.filter_map, Function.comp_def]

theorem exists_marks (predicate : Predicate) (left right : Relation) :
    ∃ marks : List (Row × Bool),
      marks.map Prod.fst = (left.rows.flatMap fun row =>
        if lonely predicate right row then [padded right row] else joined predicate right row) ∧
      (marks.filter fun mark => !mark.2).map Prod.fst = left.rows.flatMap (joined predicate right) ∧
      (marks.filter fun mark => mark.2).map Prod.fst =
        (left.rows.filter (lonely predicate right)).map (padded right) := by
  refine ⟨left.rows.flatMap (marks predicate right), ?all, ?unmarked, ?marked⟩
  case all => simp only [List.map_flatMap, map_fst_marks]
  case unmarked => simp only [List.filter_flatMap, List.map_flatMap, unmarked_marks]
  case marked =>
    simp only [List.filter_flatMap, List.map_flatMap, marked_marks]
    induction left.rows with
    | nil => rfl
    | cons row rest ih =>
      rw [List.flatMap_cons, ih, List.filter_cons]
      cases lonely predicate right row <;> rfl

/-- Where all pairs can be tested, both joins succeed and the left join completes the inner one. -/
theorem completes_of_tested {verdicts : List (List Bool)}
    (done : (left.rows.mapM fun row => (right.rows.map (row ++ ·)).mapM predicate.test) = .ok verdicts) :
    Completes predicate left right
      ⟨joinSchema left right, left.rows.flatMap (remains .inner predicate right)⟩
      ⟨joinSchema left right, left.rows.flatMap (remains .left predicate right)⟩ := by
  have inner_rows : left.rows.flatMap (remains .inner predicate right) =
      left.rows.flatMap (joined predicate right) :=
    List.flatMap_congr fun row _ => by simp [remains]
  have outer_rows : left.rows.flatMap (remains .left predicate right) = left.rows.flatMap fun row =>
      if lonely predicate right row then [padded right row] else joined predicate right row :=
    List.flatMap_congr fun row _ => by simp [remains]
  have marked := exists_marks predicate left right
  rw [← inner_rows, ← outer_rows] at marked
  refine ⟨rfl, rfl, ?tested, inner_rows, outer_rows, marked, ?represented, ?length_eq⟩
  case tested =>
    intro row member other among
    obtain ⟨verdicts, tested⟩ := Outcome.exists_of_mapM_eq_ok done member
    exact Outcome.exists_of_mapM_eq_ok tested (List.mem_map_of_mem among)
  case represented =>
    intro row member
    rw [outer_rows]
    by_cases alone : lonely predicate right row = true
    · refine ⟨List.replicate right.schema.columns.length .null, List.mem_flatMap.mpr ⟨row, member, ?_⟩⟩
      rw [if_pos alone]
      exact List.mem_singleton_self _
    · obtain ⟨pair, found⟩ := List.exists_mem_of_ne_nil _ (mt List.isEmpty_iff.mpr alone)
      obtain ⟨other, _, rfl⟩ := List.mem_map.mp found
      refine ⟨other, List.mem_flatMap.mpr ⟨row, member, ?_⟩⟩
      rwa [if_neg alone]
  case length_eq =>
    obtain ⟨marks, all, unmarked, alone⟩ := marked
    have count := marks.length_eq_length_filter_add fun mark => mark.2
    have lengthAll := congrArg List.length all
    have lengthUnmarked := congrArg List.length unmarked
    have lengthAlone := congrArg List.length alone
    simp only [List.length_map] at lengthAll lengthUnmarked lengthAlone
    rw [List.countP_eq_length_filter]
    dsimp only
    omega

end Relation

namespace Engine

/-- A left join succeeds and fails as the inner join of the same sources on the same condition does, and
completes it. -/
theorem left_join_completes (engine : Engine) (left right : Source) (condition : Option Expr) :
    (∃ error, engine.resolve (.join .inner left right condition) = .error error ∧
      engine.resolve (.join .left left right condition) = .error error) ∨
    ∃ leftRows rightRows predicate inner outer,
      engine.resolve left = .ok leftRows ∧ engine.resolve right = .ok rightRows ∧
      engine.compileWhere (Relation.joinSchema leftRows rightRows) condition = .ok predicate ∧
      engine.resolve (.join .inner left right condition) = .ok inner ∧
      engine.resolve (.join .left left right condition) = .ok outer ∧
      Relation.Completes predicate leftRows rightRows inner outer := by
  rw [@resolve_join_of_kind _ .inner rfl, @resolve_join_of_kind _ .left rfl]
  cases engine.resolve left with
  | error error => exact .inl ⟨error, rfl, rfl⟩
  | ok leftRows =>
    cases engine.resolve right with
    | error error => exact .inl ⟨error, rfl, rfl⟩
    | ok rightRows =>
      simp only [bind, Except.bind]
      cases compiled : engine.compileWhere (Relation.joinSchema leftRows rightRows) condition with
      | error error => exact .inl ⟨error, rfl, rfl⟩
      | ok predicate =>
        simp only [Relation.join_eq]
        cases done : leftRows.rows.mapM fun row =>
            (rightRows.rows.map (row ++ ·)).mapM predicate.test with
        | error error => exact .inl ⟨.eval error, rfl, rfl⟩
        | ok verdicts =>
          exact .inr ⟨leftRows, rightRows, predicate, _, _, rfl, rfl, compiled, rfl, rfl,
            Relation.completes_of_tested done⟩

end Engine

end RowStore
