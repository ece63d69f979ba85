import RowStore.Proofs.Condition.Typing
import RowStore.Proofs.Number.TotalOrder

/-!
The laws of comparison. On the values of one kind other than `NULL` the operators are those of a strict
total order: integers by size, single-precision numbers in their total order, texts by their bytes.
-/

namespace RowStore

/-- Bytes are compared one by one from the front. -/
theorem compare_eq_lt_iff_lex (left right : List UInt8) :
    compare left right = .lt ↔ List.Lex (· < ·) left right := by
  induction left generalizing right with
  | nil =>
    cases right with
    | nil => exact iff_of_false (by decide) (by simp)
    | cons second later => exact iff_of_true rfl .nil
  | cons first rest ih =>
    cases right with
    | nil => exact iff_of_false (by simp) (by simp)
    | cons second later =>
      rw [List.compare_cons_cons, Ordering.then_eq_lt, Std.compare_eq_lt, Std.compare_eq_iff_eq, ih]
      constructor
      · rintro (less | ⟨rfl, later⟩)
        · exact .rel less
        · exact .cons later
      · rintro (_ | less | later)
        · exact .inl less
        · exact .inr ⟨rfl, later⟩

namespace Value

variable {left right third : Value} {order : Ordering} {kind : ValueKind} {operator : Operator}

/-- One value stands before another one of its kind. -/
inductive Precedes : Value → Value → Prop where
  | int {left right : Int32} (less : left.toInt < right.toInt) : Precedes (.int left) (.int right)
  | float {left right : Number.Single} (before : left.Precedes right) :
      Precedes (.float left) (.float right)
  | bool : Precedes (.bool false) (.bool true)
  | text {left right : String}
      (before : List.Lex (· < ·) (Text.Utf8.encode left) (Text.Utf8.encode right)) :
      Precedes (.text left) (.text right)

theorem order?_eq_some_lt_iff : left.order? right = some .lt ↔ left.Precedes right := by
  cases left <;> cases right <;> simp only [order?, Option.some.injEq, reduceCtorEq, false_iff]
  case int.int left right =>
    rw [Std.compare_eq_lt]
    refine ⟨.int, fun precedes => ?_⟩
    cases precedes with
    | int less => exact less
  case float.float left right =>
    rw [Std.compare_eq_lt, Number.Single.rank_lt_rank_iff]
    refine ⟨.float, fun precedes => ?_⟩
    cases precedes with
    | float before => exact before
  case bool.bool left right =>
    cases left <;> cases right
    case false.true => exact iff_of_true rfl .bool
    all_goals exact iff_of_false (by decide) (by rintro ⟨⟩)
  case text.text left right =>
    rw [compare_eq_lt_iff_lex]
    refine ⟨.text, fun precedes => ?_⟩
    cases precedes with
    | text before => exact before
  -- no value precedes one of another kind
  all_goals rintro ⟨⟩

theorem order?_lt_trans (first : left.order? right = some .lt) (second : right.order? third = some .lt) :
    left.order? third = some .lt := by
  cases left <;> cases right <;> try cases first
  all_goals cases third <;> try cases second
  all_goals
    simp only [order?, Option.some.injEq] at first second ⊢
    exact Std.TransCmp.lt_trans first second

/-- A comparison that is true of two values. -/
def Holds (operator : Operator) (left right : Value) : Prop :=
  left.compareWith operator right = .ok true

theorem compareWith_of_order? (found : left.order? right = some order) (operator : Operator) :
    left.compareWith operator right = .ok (operator.accepts order) := by
  have plain : (left.isNull || right.isNull) = false := by
    cases left <;> cases right <;> first | rfl | cases found
  rw [compareWith, if_neg (by simp [plain]), found]

theorem holds_iff_of_order? (found : left.order? right = some order) :
    Holds operator left right ↔ operator.accepts order = true := by
  rw [Holds, compareWith_of_order? found, Except.ok.injEq]

/-- What holds of two values holds by their order. -/
theorem holds_iff : Holds operator left right ↔
    ∃ order, left.order? right = some order ∧ operator.accepts order = true := by
  constructor
  · intro holds
    cases found : left.order? right with
    | some order => exact ⟨order, rfl, (holds_iff_of_order? found).mp holds⟩
    | none =>
      rw [Holds, compareWith, found] at holds
      split at holds <;> cases holds
  · rintro ⟨order, found, accepted⟩
    exact (holds_iff_of_order? found).mpr accepted

theorem holds_lt_iff : Holds .lt left right ↔ left.Precedes right := by
  rw [holds_iff, ← order?_eq_some_lt_iff]
  simp [Operator.accepts]

/-- The operators of a strict total order, of which `=` is the identity. -/
structure OrderLaws (kind : ValueKind) : Prop where
  decided (operator : Operator) {left right : Value} (first : left.kind = kind)
    (second : right.kind = kind) : ∃ verdict, left.compareWith operator right = .ok verdict
  trichotomy {left right : Value} (first : left.kind = kind) (second : right.kind = kind) :
    ∃! operator, operator ∈ [Operator.lt, .eq, .gt] ∧ Holds operator left right
  transitive {left right third : Value} (first : left.kind = kind) (second : right.kind = kind)
    (last : third.kind = kind) (less : Holds .lt left right) (later : Holds .lt right third) :
    Holds .lt left third
  identical {left right : Value} (first : left.kind = kind) (second : right.kind = kind) :
    Holds .eq left right ↔ left = right
  different {left right : Value} (first : left.kind = kind) (second : right.kind = kind) :
    Holds .ne left right ↔ ¬ Holds .eq left right
  atMost {left right : Value} (first : left.kind = kind) (second : right.kind = kind) :
    Holds .le left right ↔ Holds .lt left right ∨ Holds .eq left right
  atLeast {left right : Value} (first : left.kind = kind) (second : right.kind = kind) :
    Holds .ge left right ↔ Holds .gt left right ∨ Holds .eq left right

theorem isNull_of_kind (same : left.kind = kind) (plain : kind ≠ .null) : left.isNull = false := by
  cases left <;> first | rfl | exact absurd same.symm plain

theorem orderLaws (plain : kind ≠ .null) : OrderLaws kind := by
  have ordered {left right : Value} (first : left.kind = kind) (second : right.kind = kind) :
      ∃ order, left.order? right = some order :=
    exists_order_of_kind (first.trans second.symm) (isNull_of_kind first plain)
  constructor
  case decided =>
    intro operator left right first second
    exact exists_compareWith operator (.inr (.inr (first.trans second.symm)))
  case transitive =>
    intro left right third first second last less later
    rw [holds_lt_iff, ← order?_eq_some_lt_iff] at less later ⊢
    exact order?_lt_trans less later
  case identical =>
    intro left right first second
    rw [Holds, compareWith_eq_ok_true_iff, isNull_of_kind first plain, and_iff_left rfl]
  -- the remaining laws compare the operators, each of which is read off the order of the two values
  all_goals
    intro left right first second
    obtain ⟨order, found⟩ := ordered first second
    simp only [holds_iff_of_order? found]
    cases order
  all_goals simp [ExistsUnique, Operator.accepts]

end Value

end RowStore
