import RowStore.Proofs.Condition.Literals
import RowStore.Proofs.Number.Written

/-!
Numbers in integer columns. A decimal is stored as the 32-bit integer that it is nearest to in 53 binary
digits, if there is one. That is the number itself unless digits are lost on the way: those behind the 53
digits, and those of a power of ten that is written with too many.
-/

namespace RowStore

open Number (Written Format double exponentBound)

theorem int32?_eq_some_iff (number : Int) (stored : Int32) :
    int32? number = some stored ↔ number = stored.toInt := by
  rw [int32?, Option.ite_none_right_eq_some, Option.some.injEq]
  constructor
  · rintro ⟨⟨low, high⟩, rfl⟩
    exact (Int32.toInt_ofInt_of_le low (Int.lt_of_le_sub_one high)).symm
  · rintro rfl
    exact ⟨⟨stored.minValue_le_toInt, stored.toInt_le⟩, Int32.ofInt_toInt stored⟩

theorem abs_toInt_le (stored : Int32) : |stored.toInt| ≤ 2 ^ 31 :=
  abs_le.mpr ⟨stored.le_toInt, stored.toInt_lt.le⟩

/-- A 32-bit integer is near itself only. -/
theorem near_toInt_iff (stored : Int32) (target : Int) :
    double.Near stored.toInt target ↔ stored.toInt = target :=
  Format.near_intCast_iff ((abs_toInt_le stored).trans (by decide))

namespace Number.Written

variable {written : Written}

/-- A decimal is taken for the 32-bit integer that it is near to as it is read. -/
theorem readInt32?_text (written : Written) (stored : Int32) :
    readInt32? written.text = some stored ↔ double.Near written.valueRead stored.toInt := by
  rw [readInt32?]
  cases direct : (readInt? written.text).bind int32? with
  | some found =>
    obtain ⟨number, read, within⟩ := Option.bind_eq_some_iff.mp direct
    rw [int32?_eq_some_iff] at within
    rw [valueRead_of_readInt? read, within, near_toInt_iff, Option.some.injEq, Int32.toInt_inj]
  | none =>
    have small : stored.toInt.natAbs < 2 ^ 52 := by
      have low := stored.le_toInt
      have high := stored.toInt_lt
      omega
    rw [written.readNumeral?_text, Option.bind_eq_some_iff]
    simp only [int32?_eq_some_iff, exists_eq_right]
    exact Decimal.toInt?_eq_some_iff _ small

/-- A decimal that is stored in an integer column as the 32-bit integer that it is, and not at all if it is
none. -/
def StoresExactly (written : Written) (column : Column) : Prop :=
  (∀ number : Int32, (Literal.number written.text).store column = .ok (.int number) ↔
    written.value = number.toInt) ∧
  ((∀ number : Int32, written.value ≠ number.toInt) →
    (Literal.number written.text).store column = .error (.literal column.name written.text))

/-- A decimal that is taken for an integer that it is not, or that is not taken for the integer that it is
because its power of ten has digits that do not count. -/
inductive Misread (written : Written) : Prop where
  | rounded (number : Int32) (near : double.Near written.valueRead number.toInt)
      (apart : written.value ≠ number.toInt) : Misread written
  | cut (number : Int32) (whole : written.value = number.toInt) (nonzero : number ≠ 0)
      (beyond : exponentBound ≤ written.powerSize) : Misread written

theorem store_eq_ok_iff (written : Written) (name : String) (length : UInt32) (number : Int32) :
    (Literal.number written.text).store ⟨name, .int, length⟩ = .ok (.int number) ↔
      double.Near written.valueRead number.toInt := by
  rw [← readInt32?_text, Literal.store_eq_ok_iff, Literal.stored?, Option.map_eq_some_iff]
  simp

theorem store_eq_error (written : Written) (name : String) (length : UInt32)
    (apart : ∀ number : Int32, ¬ double.Near written.valueRead number.toInt) :
    (Literal.number written.text).store ⟨name, .int, length⟩ = .error (.literal name written.text) := by
  have unread : readInt32? written.text = none :=
    Option.eq_none_iff_forall_ne_some.mpr fun number read => apart number ((written.readInt32?_text _).mp read)
  rw [Literal.store, Literal.stored?, unread]
  rfl

/-- The number that is written is the one that is read times a power of ten, which is not one if digits of
the exponent are lost. -/
theorem exists_value_eq_mul (written : Written) : ∃ power : Int,
    written.valueRead * 10 ^ power = written.value ∧ (exponentBound ≤ written.powerSize → power ≠ 0) := by
  obtain ⟨sign, sign_eq⟩ : ∃ sign, written.power.elim .none Power.sign = sign := ⟨_, rfl⟩
  refine ⟨sign.apply written.powerSize - sign.apply written.powerRead, ?_, fun beyond => ?_⟩
  · have ten : (10 : ℚ) ≠ 0 := by norm_num
    rw [valueRead, value, Decimal.toRat, Decimal.toRat, mul_assoc, mul_assoc, ← zpow_add₀ ten]
    simp only [withPower, sign_eq]
    congr 3
    omega
  · have less := written.powerRead_lt.trans_le beyond
    rw [Sign.apply, Sign.apply]
    split <;> omega

/-- A number that is not misread is near the integer that it is, and no other. -/
theorem near_iff_of_not_misread (faithful : ¬ written.Misread) (number : Int32) :
    double.Near written.valueRead number.toInt ↔ written.value = number.toInt := by
  constructor
  · intro near
    by_contra apart
    exact faithful (.rounded number near apart)
  · intro whole
    have read : written.valueRead = number.toInt := by
      by_cases zero : number = 0
      · subst zero
        obtain ⟨power, same, _⟩ := written.exists_value_eq_mul
        rw [whole, Int32.toInt_zero, Int.cast_zero] at same
        rw [(mul_eq_zero.mp same).resolve_right (zpow_ne_zero power (by norm_num)), Int32.toInt_zero,
          Int.cast_zero]
      · have below : written.powerSize < exponentBound :=
          Nat.lt_of_not_le fun beyond => faithful (.cut number whole zero beyond)
        rw [valueRead, written.powerRead_eq below]
        exact whole
    rw [read, near_toInt_iff]

/-- An integer column stores for a decimal the 32-bit integer that it is near to in 53 binary digits, and
nothing if there is none. A decimal is so stored exactly if it is not misread, which may happen in one of
two ways: it is not a 32-bit integer but near one, or it is one with too large a power of ten. -/
theorem storesExactly_iff_not_misread (written : Written) (name : String) (length : UInt32) :
    (∀ number : Int32, (Literal.number written.text).store ⟨name, .int, length⟩ = .ok (.int number) ↔
      double.Near written.valueRead number.toInt) ∧
    ((∀ number : Int32, ¬ double.Near written.valueRead number.toInt) →
      (Literal.number written.text).store ⟨name, .int, length⟩ = .error (.literal name written.text)) ∧
    (written.powerSize < exponentBound → written.valueRead = written.value) ∧
    (written.StoresExactly ⟨name, .int, length⟩ ↔ ¬ written.Misread) := by
  have stores := written.store_eq_ok_iff name length
  have refuses := written.store_eq_error name length
  refine ⟨stores, refuses, fun below => by rw [valueRead, written.powerRead_eq below, value], ?_, ?_⟩
  · rintro ⟨exact, refused⟩ (⟨number, near, apart⟩ | ⟨number, whole, nonzero, beyond⟩)
    · exact apart ((exact number).mp ((stores number).mpr near))
    · obtain ⟨power, same, shifted⟩ := written.exists_value_eq_mul
      have other : number.toInt ≠ 0 := fun zero => nonzero (Int32.toInt_inj.mp zero)
      exact Format.not_near_of_mul_zpow (shifted beyond) other (same.trans whole)
        ((stores number).mp ((exact number).mpr whole))
  · intro faithful
    have near_iff := near_iff_of_not_misread faithful
    refine ⟨fun number => (stores number).trans (near_iff number), fun apart => ?_⟩
    exact refuses fun number near => apart number ((near_iff number).mp near)

/-- The decimal `2147483647.0000001`. -/
def beyondRange : Written := ⟨.none, "2147483647".toList, some "0000001".toList, none, by decide⟩

/-- A number that is no integer and larger than all of them is stored as the largest one. -/
theorem not_storesExactly_beyondRange :
    beyondRange.text = "2147483647.0000001" ∧ beyondRange.value = 2147483647 + 1 / 10 ^ 7 ∧
      (Literal.number beyondRange.text).store (.ofType "a" .int) = .ok (.int 2147483647) ∧
      ¬ beyondRange.StoresExactly (.ofType "a" .int) := by
  have value : beyondRange.value = 2147483647 + 1 / 10 ^ 7 := by
    have decimal : beyondRange.withPower beyondRange.powerSize = ⟨false, 21474836470000001, -7⟩ := by
      decide +kernel
    rw [Written.value, decimal, Decimal.toRat]
    norm_num
  have read : readInt32? beyondRange.text = some 2147483647 := by decide +kernel
  have stored : (Literal.number beyondRange.text).store (.ofType "a" .int) = .ok (.int 2147483647) := by
    rw [Literal.store, Column.ofType, Literal.stored?, read]
    rfl
  refine ⟨by decide, value, stored, fun exact => ?_⟩
  have whole := (exact.1 2147483647).mp stored
  rw [value, show (2147483647 : Int32).toInt = 2147483647 by decide] at whole
  norm_num at whole

end Number.Written

end RowStore
