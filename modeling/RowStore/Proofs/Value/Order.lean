import Mathlib
import RowStore.Value.Comparison
import RowStore.Proofs.Text.Utf8

/-!
The order of values: a comparison says the same with its two sides exchanged, and two values compare
equal exactly if they are one value.
-/

namespace RowStore

namespace Number.Single

theorem rank_injective {left right : Single} (same : left.rank = right.rank) : left = right := by
  have bound (number : Single) : number.bits.toNat < 2 * signBit := number.bits.toNat_lt
  have apart (number : Single) : number.bits.toNat = number.magnitude + signBit ∧ number.negative = true ∨
      number.bits.toNat = number.magnitude ∧ number.negative = false := by
    have limit := bound number
    rw [magnitude, negative]
    by_cases low : number.bits.toNat < signBit
    · exact .inr ⟨(Nat.mod_eq_of_lt low).symm, decide_eq_false (by omega)⟩
    · rw [Nat.mod_eq_sub_mod (by omega), Nat.mod_eq_of_lt (by omega)]
      exact .inl ⟨by omega, decide_eq_true (by omega)⟩
  have bits : left.bits.toNat = right.bits.toNat := by
    rw [rank, rank] at same
    rcases apart left with ⟨first, firstSign⟩ | ⟨first, firstSign⟩ <;>
      rcases apart right with ⟨second, secondSign⟩ | ⟨second, secondSign⟩ <;>
      simp only [firstSign, secondSign, if_true, Bool.false_eq_true, if_false] at same <;> omega
  obtain ⟨left⟩ := left
  obtain ⟨right⟩ := right
  exact congrArg mk (UInt32.toNat_inj.mp bits)

end Number.Single

theorem Text.Utf8.encode_injective {left right : String} (same : encode left = encode right) :
    left = right := by
  have read := decode?_encode left
  rw [same, decode?_encode] at read
  exact (Option.some.inj read).symm

/-- The mismatch that is seen from the other side. -/
def TypeMismatch.mirrored (mismatch : TypeMismatch) : TypeMismatch :=
  ⟨mismatch.operator.mirrored, mismatch.right, mismatch.left⟩

theorem Operator.accepts_mirrored (operator : Operator) (order : Ordering) :
    operator.mirrored.accepts order.swap = operator.accepts order := by
  cases operator <;> cases order <;> rfl

namespace Value

theorem order?_swap (left right : Value) :
    right.order? left = (left.order? right).map Ordering.swap := by
  cases left <;> cases right <;> simp only [order?, Option.map_some, Option.map_none]
  all_goals exact congrArg some Std.OrientedCmp.eq_swap

theorem order?_eq_some_eq_iff (left right : Value) :
    left.order? right = some .eq ↔ left = right ∧ left.isNull = false := by
  cases left <;> cases right <;>
    simp only [order?, Option.some.injEq, Std.compare_eq_iff_eq, isNull, reduceCtorEq,
      and_true, int.injEq, float.injEq, bool.injEq, text.injEq, Bool.true_eq_false, and_false]
  case int.int left right => exact Int32.toInt_inj
  case float.float left right =>
    exact ⟨Number.Single.rank_injective, fun same => congrArg _ same⟩
  case text.text left right =>
    exact ⟨Text.Utf8.encode_injective, fun same => congrArg _ same⟩

/-- A comparison with its sides exchanged has the same outcome; a mismatch is seen from the other
side. -/
theorem compareWith_mirrored (operator : Operator) (left right : Value) :
    right.compareWith operator.mirrored left =
      (left.compareWith operator right).mapError TypeMismatch.mirrored := by
  rw [compareWith, compareWith, Bool.or_comm, order?_swap]
  split
  · rfl
  · cases left.order? right with
    | none => rfl
    | some order =>
      simp only [Option.map_some, Operator.accepts_mirrored]
      rfl

/-- Two values compare equal exactly if they are one value other than `NULL`. -/
theorem compareWith_eq_ok_true_iff (left right : Value) :
    left.compareWith .eq right = .ok true ↔ left = right ∧ left.isNull = false := by
  rw [← order?_eq_some_eq_iff, compareWith]
  split
  · rename_i null
    simp only [Except.ok.injEq, Bool.false_eq_true, false_iff]
    rw [order?_eq_some_eq_iff]
    rintro ⟨rfl, plain⟩
    simp [plain] at null
  · cases left.order? right with
    | none => simp
    | some order => cases order <;> simp [Operator.accepts]

end Value

end RowStore
