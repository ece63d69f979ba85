import RowStore.Proofs.Relation.Bags

/-!
Filters one after another and part by part. A join is a filter over all pairs of rows, except that a
left join also keeps rows that meet none.
-/

namespace RowStore

/-- Rows that can all be tested are kept if they pass. -/
theorem keepRows_of_tested {predicate : Predicate} {rows : List Row}
    (tested : ∀ row ∈ rows, ∃ verdict, predicate.test row = .ok verdict) :
    keepRows predicate rows = .ok (rows.filter predicate.accepts) := by
  rw [keepRows_eq]
  cases verdicts : rows.mapM predicate.test with
  | ok _ => rfl
  | error error =>
    obtain ⟨row, member, failed⟩ := Outcome.exists_of_mapM_eq_error verdicts
    obtain ⟨verdict, passed⟩ := tested row member
    rw [failed] at passed
    cases passed

/-- Rows are kept part by part, and a failure in the front part is the failure of the whole. -/
theorem keepRows_append (predicate : Predicate) (front back : List Row) :
    keepRows predicate (front ++ back) = do
      let kept ← keepRows predicate front
      let later ← keepRows predicate back
      return kept ++ later := by
  induction front with
  | nil =>
    rw [List.nil_append]
    cases keepRows predicate back <;> rfl
  | cons row rest ih =>
    rw [List.cons_append, keepRows, keepRows, ih]
    cases predicate.test row with
    | error error => rfl
    | ok accepted =>
      cases keepRows predicate rest with
      | error error => rfl
      | ok kept =>
        cases keepRows predicate back with
        | error error => rfl
        | ok later => cases accepted <;> rfl

/-- Rows that come block by block are kept block by block. -/
theorem keepRows_flatMap {Item : Type} (predicate : Predicate) (rowsOf : Item → List Row)
    (items : List Item) :
    keepRows predicate (items.flatMap rowsOf) =
      (items.mapM fun item => keepRows predicate (rowsOf item)).map List.flatten := by
  induction items with
  | nil => rfl
  | cons item rest ih =>
    rw [List.flatMap_cons, keepRows_append, ih, Outcome.mapM_cons]
    cases keepRows predicate (rowsOf item) with
    | error error => rfl
    | ok kept => cases rest.mapM fun item => keepRows predicate (rowsOf item) <;> rfl

/-- A conjunction keeps what its right side keeps of the rows that its left side keeps. Where one of
the two sides fails on a row that it is asked about, so does the conjunction. -/
theorem agrees_keepRows_and (first second : Predicate) (rows : List Row) :
    Agrees Eq (keepRows first rows >>= keepRows second) (keepRows (.and first second) rows) := by
  induction rows with
  | nil => exact .answered _ _ rfl
  | cons row rest ih =>
    rw [keepRows, keepRows, Predicate.test]
    cases first.test row with
    | error error => exact .failed error error
    | ok accepted =>
      cases accepted with
      | false =>
        -- the right side is not asked about a row that the left side leaves out
        change Agrees Eq ((keepRows first rest >>= pure) >>= keepRows second)
          (keepRows (.and first second) rest >>= pure)
        rw [bind_pure, bind_pure]
        exact ih
      | true =>
        change Agrees Eq ((keepRows first rest >>= fun kept => pure (row :: kept)) >>= keepRows second)
          (second.test row >>= fun verdict => keepRows (.and first second) rest >>= fun later =>
            pure (if verdict then row :: later else later))
        simp only [bind_assoc, pure_bind, keepRows]
        cases second.test row with
        | error error =>
          cases keepRows first rest with
          | error fault => exact .failed fault error
          | ok kept => exact .failed error error
        | ok verdict =>
          change Agrees Eq
            (keepRows first rest >>= fun kept => keepRows second kept >>= fun later =>
              pure (if verdict then row :: later else later))
            (keepRows (.and first second) rest >>= fun later =>
              pure (if verdict then row :: later else later))
          rw [← bind_assoc]
          refine ih.bind fun kept later same => ?_
          rw [same]
          exact .answered _ _ rfl

namespace Relation

theorem schema_of_filter {predicate : Predicate} {relation kept : Relation}
    (filtered : relation.filter predicate = .ok kept) :
    kept.schema = relation.schema := by
  obtain ⟨rows, _, same⟩ := Outcome.bind_eq_ok_iff.mp filtered
  cases same
  rfl

/-- Filters one after the other are the filter of their conjunction. -/
theorem agrees_filter_and (first second : Predicate) (relation : Relation) :
    Agrees Eq (relation.filter first >>= (·.filter second)) (relation.filter (.and first second)) := by
  unfold filter
  simp only [bind_assoc, pure_bind]
  rw [← bind_assoc]
  refine (agrees_keepRows_and first second relation.rows).bind fun kept later same => ?_
  rw [same]
  exact .answered _ _ rfl

/-- All pairs of a left row and a right row, the right rows in turn for each left row. -/
def pairs (left right : Relation) : Relation :=
  ⟨joinSchema left right, left.rows.flatMap fun row => right.rows.map (row ++ ·)⟩

theorem filter_always (relation : Relation) : relation.filter .always = .ok relation := by
  have kept : keepRows .always relation.rows = .ok relation.rows := by
    induction relation.rows with
    | nil => rfl
    | cons row rest ih => rw [keepRows, Predicate.test, ih]; rfl
  rw [filter, kept]
  rfl

/-- A join that keeps no row for want of a partner is a filter over all pairs. -/
theorem join_eq_filter {kind : JoinKind} (inner : kind ≠ .left) (predicate : Predicate)
    (left right : Relation) : join kind predicate left right = (pairs left right).filter predicate := by
  have each (row : Row) :
      block kind predicate right row = keepRows predicate (right.rows.map (row ++ ·)) := by
    rw [block]
    cases keepRows predicate (right.rows.map (row ++ ·)) with
    | error error => rfl
    | ok kept => cases kind <;> first | exact absurd rfl inner | simp [bind, Except.bind, pure, Except.pure]
  rw [join, funext each, filter, pairs]
  simp only [keepRows_flatMap]
  cases left.rows.mapM fun row => keepRows predicate (right.rows.map (row ++ ·)) <;> rfl

end Relation

end RowStore
