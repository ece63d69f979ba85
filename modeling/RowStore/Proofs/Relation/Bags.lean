import RowStore.Condition.Compile
import RowStore.Proofs.Agreement
import RowStore.Proofs.Outcome
import RowStore.Relation.Join

/-!
Relations as bags of rows. Filters, joins and select lists do not depend on the order of rows, and a
condition does not depend on the order of the rows that its sub-queries answer.
-/

namespace RowStore

/-- Whether a row meets a condition; one that cannot be tested does not. -/
def Predicate.accepts (predicate : Predicate) (row : Row) : Bool :=
  (predicate.test row).toOption.getD false

/-- Two relations of one schema with the same rows, each as often. -/
structure SameBag (relation other : Relation) : Prop where
  schema_eq : relation.schema = other.schema
  rows_perm : relation.rows.Perm other.rows

/-- Two conditions with the same outcome on every row. -/
def SameTest (first second : Predicate) : Prop := ∀ row, first.test row = second.test row

variable {first second : Predicate} {relation other : Relation}

theorem SameTest.test_eq (same : SameTest first second) : first.test = second.test := funext same

theorem SameTest.accepts_eq (same : SameTest first second) : first.accepts = second.accepts := by
  funext row
  rw [Predicate.accepts, Predicate.accepts, same]

/-- Rows are kept as soon as all of them can be tested. -/
theorem keepRows_eq (predicate : Predicate) (rows : List Row) :
    keepRows predicate rows =
      (rows.mapM predicate.test).map fun _ => rows.filter predicate.accepts := by
  induction rows with
  | nil => rfl
  | cons row rest ih =>
    rw [keepRows, Outcome.mapM_cons, ih]
    cases tested : predicate.test row with
    | error error => rfl
    | ok kept =>
      have accepts : predicate.accepts row = kept := by
        rw [Predicate.accepts, tested]
        rfl
      rw [List.filter_cons, accepts]
      cases rest.mapM predicate.test with
      | error error => rfl
      | ok verdicts => cases kept <;> rfl

/-- The rows that are kept do not depend on their order. -/
theorem agrees_keepRows {rows others : List Row} (same : SameTest first second)
    (perm : rows.Perm others) :
    Agrees List.Perm (keepRows first rows) (keepRows second others) := by
  rw [keepRows_eq, keepRows_eq, same.accepts_eq, same.test_eq]
  exact (Agrees.mapM_perm second.test perm).map fun _ _ _ => perm.filter _

namespace SameBag

theorem labelled (same : SameBag relation other) (label : Option String) :
    SameBag (relation.labelled label) (other.labelled label) := by
  cases label with
  | none => exact same
  | some label => exact ⟨congrArg (·.renamed label) same.schema_eq, same.rows_perm⟩

theorem filter (same : SameBag relation other) (tested : SameTest first second) :
    Agrees SameBag (relation.filter first) (other.filter second) := by
  refine (agrees_keepRows tested same.rows_perm).bind fun kept left perm => ?_
  exact .answered _ _ ⟨same.schema_eq, perm⟩

theorem project (same : SameBag relation other) (items : List SelectItem) :
    Agrees SameBag (relation.project items) (other.project items) := by
  rw [Relation.project, Relation.project, same.schema_eq]
  refine (Agrees.refl (fun _ => rfl) _).bind fun columns _ equal => ?_
  subst equal
  exact .answered _ _ ⟨rfl, same.rows_perm.map _⟩

theorem joinSchema_eq {left right leftOther rightOther : Relation} (sameLeft : SameBag left leftOther)
    (sameRight : SameBag right rightOther) :
    Relation.joinSchema left right = Relation.joinSchema leftOther rightOther := by
  rw [Relation.joinSchema, Relation.joinSchema, sameLeft.schema_eq, sameRight.schema_eq]

/-- The joined rows of one left row do not depend on the order of the right rows. -/
theorem block (same : SameBag relation other) (tested : SameTest first second) (kind : JoinKind)
    (row : Row) :
    Agrees List.Perm (Relation.block kind first relation row)
      (Relation.block kind second other row) := by
  rw [Relation.block, Relation.block]
  refine (agrees_keepRows tested (same.rows_perm.map _)).bind fun joined others perm => ?_
  rw [perm.isEmpty_eq, same.schema_eq]
  split
  · exact .answered _ _ (.refl _)
  · exact .answered _ _ perm

theorem join {left right leftOther rightOther : Relation} (sameLeft : SameBag left leftOther)
    (sameRight : SameBag right rightOther) (tested : SameTest first second) (kind : JoinKind) :
    Agrees SameBag (Relation.join kind first left right)
      (Relation.join kind second leftOther rightOther) := by
  have blocks : Agrees (fun blocks others => blocks.flatten.Perm others.flatten)
      (left.rows.mapM (Relation.block kind first right))
      (leftOther.rows.mapM (Relation.block kind second rightOther)) := by
    refine (Agrees.mapM (fun row => sameRight.block tested kind row) left.rows).trans
      (Agrees.mapM_perm _ sameLeft.rows_perm) fun blocks middle others each perm => ?_
    exact (List.Perm.flatten_congr each).trans perm.flatten
  refine blocks.bind fun blocks others perm => ?_
  exact .answered _ _ ⟨joinSchema_eq sameLeft sameRight, perm⟩

end SameBag

/-- The members of a sub-query do not depend on the order of its rows. -/
theorem contains_membersOf {rows others : List Row} (perm : rows.Perm others) (value : Value) :
    (membersOf rows).contains value = (membersOf others).contains value := by
  have same : value ∈ membersOf rows ↔ value ∈ membersOf others := by
    simp only [membersOf, List.mem_eraseDups, List.mem_filter, List.mem_filterMap, perm.mem_iff]
  rw [Bool.eq_iff_iff, List.contains_iff_mem, List.contains_iff_mem, same]

namespace SameTest

variable {third fourth : Predicate}

theorem refl (predicate : Predicate) : SameTest predicate predicate := fun _ => rfl

theorem and (left : SameTest first second) (right : SameTest third fourth) :
    SameTest (.and first third) (.and second fourth) := by
  intro row
  rw [Predicate.test, Predicate.test, left, right]

theorem or (left : SameTest first second) (right : SameTest third fourth) :
    SameTest (.or first third) (.or second fourth) := by
  intro row
  rw [Predicate.test, Predicate.test, left, right]

theorem isIn (column : Nat) {rows others : List Row} (perm : rows.Perm others) :
    SameTest (.isIn column (membersOf rows)) (.isIn column (membersOf others)) := by
  intro row
  simp only [Predicate.test, contains_membersOf perm]

end SameTest

/-- A condition is compiled to the same test by two ways to run its sub-queries that give the same
rows. -/
theorem agrees_compile (schema : Schema) (condition : Expr)
    (run answer : (query : Select) → query ∈ condition.subqueries → Except EngineError (List Row))
    (same : ∀ query member, Agrees List.Perm (run query member) (answer query member)) :
    Agrees SameTest (compile schema condition (some run)) (compile schema condition (some answer)) := by
  induction condition using Expr.subqueries.induct with
  | case1 left right leftAgrees rightAgrees =>
    rw [compile, compile]
    refine (leftAgrees _ _ fun query member => same query _).bind fun first second tested => ?_
    refine (rightAgrees _ _ fun query member => same query _).bind fun third fourth holds => ?_
    exact .answered _ _ (tested.and holds)
  | case2 left right leftAgrees rightAgrees =>
    rw [compile, compile]
    refine (leftAgrees _ _ fun query member => same query _).bind fun first second tested => ?_
    refine (rightAgrees _ _ fun query member => same query _).bind fun third fourth holds => ?_
    exact .answered _ _ (tested.or holds)
  | case3 operand query =>
    rw [compile, compile]
    refine (Agrees.refl (fun _ => rfl) _).bind fun column _ equal => ?_
    subst equal
    refine (same query _).bind fun rows others perm => ?_
    exact .answered _ _ (.isIn column perm)
  | case4 condition noAnd noOr noQuery =>
    -- no sub-query is left to run, so both sides are compiled alike
    cases condition with
    | and left right => exact absurd rfl (noAnd left right)
    | or left right => exact absurd rfl (noOr left right)
    | inSelect operand query => exact absurd rfl (noQuery operand query)
    | _ => rw [compile, compile]; exact Agrees.refl SameTest.refl _

end RowStore
