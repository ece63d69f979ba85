import Mathlib
import RowStore.Number.Rounding

/-!
Rounding to a format, in terms of rational numbers.
-/

namespace RowStore.Number

variable {numerator denominator : Nat} {exponent : Int}

theorem scale_snd_pos (positive : 0 < denominator) : 0 < (scale numerator denominator exponent).2 := by
  rw [scale]
  split
  · rw [Nat.shiftLeft_eq]
    positivity
  · exact positive

theorem scale_div (numerator denominator : Nat) (exponent : Int) :
    ((scale numerator denominator exponent).1 : ℚ) / (scale numerator denominator exponent).2 =
      numerator / denominator / 2 ^ exponent := by
  rw [scale]
  split
  · rename_i nonneg
    obtain ⟨shift, rfl⟩ := Int.eq_ofNat_of_zero_le nonneg
    simp [Nat.shiftLeft_eq, div_div]
  · rename_i negative
    obtain ⟨shift, rfl⟩ : ∃ shift : Nat, exponent = -shift := ⟨(-exponent).toNat, by omega⟩
    simp only [neg_neg, Int.toNat_natCast, Nat.shiftLeft_eq, Nat.cast_mul, Nat.cast_pow, Nat.cast_ofNat,
      zpow_neg, zpow_natCast, div_inv_eq_mul]
    ring

/-- A power of two between two numbers of digits is known up to one. -/
theorem zpow_log2_bounds (positive : 0 < numerator) (nonzero : 0 < denominator) :
    let estimate : Int := (Nat.log2 numerator : Int) - Nat.log2 denominator
    (2 : ℚ) ^ (estimate - 1) ≤ numerator / denominator ∧
      (numerator : ℚ) / denominator < 2 ^ (estimate + 1) := by
  intro estimate
  have lowNumerator : (2 : ℚ) ^ Nat.log2 numerator ≤ numerator := by
    exact_mod_cast Nat.log2_self_le positive.ne'
  have highNumerator : (numerator : ℚ) < 2 ^ (Nat.log2 numerator + 1) := by
    exact_mod_cast Nat.lt_log2_self
  have lowDenominator : (2 : ℚ) ^ Nat.log2 denominator ≤ denominator := by
    exact_mod_cast Nat.log2_self_le nonzero.ne'
  have highDenominator : (denominator : ℚ) < 2 ^ (Nat.log2 denominator + 1) := by
    exact_mod_cast Nat.lt_log2_self
  constructor
  · calc (2 : ℚ) ^ (estimate - 1)
        = 2 ^ Nat.log2 numerator / 2 ^ (Nat.log2 denominator + 1) := by
          rw [← zpow_natCast, ← zpow_natCast, ← zpow_sub₀ two_ne_zero]
          congr 1
          push_cast
          omega
      _ ≤ numerator / denominator := by gcongr
  · calc (numerator : ℚ) / denominator
        < 2 ^ (Nat.log2 numerator + 1) / 2 ^ Nat.log2 denominator := by gcongr
      _ = 2 ^ (estimate + 1) := by
          rw [← zpow_natCast, ← zpow_natCast, ← zpow_sub₀ two_ne_zero]
          congr 1
          push_cast
          omega

/-- The powers of two that a positive number reaches are those up to its logarithm. -/
theorem zpow_two_le_iff {number : ℚ} (positive : 0 < number) (place : Int) :
    (2 : ℚ) ^ place ≤ number ↔ place ≤ Int.log 2 number := by
  exact_mod_cast Int.zpow_le_iff_le_log (R := ℚ) one_lt_two positive

/-- The leading exponent of a fraction is its logarithm. -/
theorem leadingExponent_eq (positive : 0 < numerator) (nonzero : 0 < denominator) :
    leadingExponent numerator denominator = Int.log 2 ((numerator : ℚ) / denominator) := by
  have fraction : (0 : ℚ) < numerator / denominator := by positivity
  obtain ⟨low, high⟩ := zpow_log2_bounds positive nonzero
  set estimate : Int := (Nat.log2 numerator : Int) - Nat.log2 denominator with estimate_eq
  have reaches : (scale numerator denominator estimate).2 ≤ (scale numerator denominator estimate).1 ↔
      estimate ≤ Int.log 2 ((numerator : ℚ) / denominator) := by
    have divisor : (0 : ℚ) < (scale numerator denominator estimate).2 := by
      exact_mod_cast scale_snd_pos nonzero
    have unit : (0 : ℚ) < 2 ^ estimate := by positivity
    rw [← zpow_two_le_iff fraction, ← one_le_div unit, ← scale_div, one_le_div divisor, Nat.cast_le]
  have least := (zpow_two_le_iff fraction _).mp low
  have most := mt (zpow_two_le_iff fraction _).mpr (not_le.mpr high)
  rw [leadingExponent]
  simp only [← estimate_eq, reaches]
  split <;> omega

/-- A fraction is rounded to an even number exactly if it is no more than a half away from it. -/
theorem roundHalfEven_eq_iff (numerator : Nat) (nonzero : 0 < denominator) {target : Nat}
    (even : target % 2 = 0) :
    roundHalfEven numerator denominator = target ↔
      |(numerator : ℚ) / denominator - target| ≤ 1 / 2 := by
  have divisor : (0 : ℚ) < denominator := by exact_mod_cast nonzero
  have close : |(numerator : ℚ) / denominator - target| ≤ 1 / 2 ↔
      2 * (denominator * target) ≤ 2 * numerator + denominator ∧
        2 * numerator ≤ 2 * (denominator * target) + denominator := by
    rw [abs_le, div_sub' divisor.ne', le_div_iff₀ divisor, div_le_iff₀ divisor]
    qify
    constructor <;> rintro ⟨_, _⟩ <;> constructor <;> linarith
  have split := Nat.div_add_mod numerator denominator
  have rest := Nat.mod_lt numerator nonzero
  rw [close, roundHalfEven]
  generalize numerator / denominator = quotient at *
  generalize numerator % denominator = remainder at *
  rw [← split]
  simp only [Bool.or_eq_true, Bool.and_eq_true, decide_eq_true_eq, beq_iff_eq]
  -- a target that is neither the quotient nor its successor is a whole denominator too far away
  rcases Nat.lt_or_ge target quotient with before | reached
  · have far : denominator * (target + 1) ≤ denominator * quotient := Nat.mul_le_mul_left _ before
    rw [Nat.mul_succ] at far
    refine iff_of_false ?_ (by omega)
    split <;> omega
  · obtain ⟨steps, rfl⟩ := Nat.exists_eq_add_of_le reached
    match steps with
    | 0 =>
      simp only [Nat.add_zero] at even ⊢
      split <;> omega
    | 1 =>
      rw [Nat.mul_succ]
      split <;> omega
    | steps + 2 =>
      have far : denominator * (quotient + 2) ≤ denominator * (quotient + (steps + 2)) :=
        Nat.mul_le_mul_left _ (by omega)
      rw [Nat.mul_add] at far
      refine iff_of_false ?_ (by omega)
      split <;> omega

/-- The number that a dyadic number stands for. -/
def Dyadic.toRat (number : Dyadic) : ℚ := number.significand * 2 ^ number.exponent

theorem Dyadic.toNat?_eq_some_iff (number : Dyadic) (target : Nat) :
    number.toNat? = some target ↔ number.toRat = target := by
  have scaled := scale_div number.significand 1 (-number.exponent)
  rw [Nat.cast_one, div_one, zpow_neg, div_inv_eq_mul] at scaled
  have nonzero : 0 < (scale number.significand 1 (-number.exponent)).2 := scale_snd_pos one_pos
  rw [toNat?, toRat, ← scaled]
  generalize (scale number.significand 1 (-number.exponent)) = fraction at *
  obtain ⟨numerator, denominator⟩ := fraction
  have divisor : (denominator : ℚ) ≠ 0 := by exact_mod_cast nonzero.ne'
  have whole : (if numerator % denominator = 0 then some (numerator / denominator) else none) =
      some target ↔ numerator = target * denominator := by
    rw [Option.ite_none_right_eq_some, Option.some.injEq]
    constructor
    · rintro ⟨divides, rfl⟩
      exact (Nat.div_mul_cancel (Nat.dvd_of_mod_eq_zero divides)).symm
    · rintro rfl
      exact ⟨Nat.mul_mod_left _ _, Nat.mul_div_cancel _ nonzero⟩
  rw [whole, div_eq_iff divisor]
  norm_cast

namespace Format

/-- The exponent of the last place of the numbers of a format that are nearest to a number. -/
def place (format : Format) (number : ℚ) : Int :=
  max (Int.log 2 |number| - (format.precision - 1 : Nat)) (-format.depth)

/-- Within half a unit of the last place. -/
def Near (format : Format) (number : ℚ) (target : Int) : Prop :=
  |number - target| ≤ 2 ^ (format.place number - 1)

variable {format : Format}

theorem round_eq (format : Format) (positive : 0 < numerator) (nonzero : 0 < denominator) :
    format.round numerator denominator =
      ⟨roundHalfEven (scale numerator denominator (format.place (numerator / denominator))).1
        (scale numerator denominator (format.place (numerator / denominator))).2,
        format.place (numerator / denominator)⟩ := by
  have fraction : (0 : ℚ) < numerator / denominator := by positivity
  have last : format.place (numerator / denominator) =
      max (leadingExponent numerator denominator - (format.precision - 1 : Nat)) (-format.depth) := by
    rw [place, leadingExponent_eq positive nonzero, abs_of_pos fraction]
  rw [round, if_neg positive.ne', last]

/-- Half a unit of the last place is at most a half, or as small a part of the number as its digits tell. -/
theorem slack_le (format : Format) (number : ℚ) :
    (2 : ℚ) ^ (format.place number - 1) ≤ max (|number| / 2 ^ (format.precision - 1)) 1 / 2 := by
  rw [zpow_sub₀ two_ne_zero, zpow_one]
  gcongr
  by_cases zero : number = 0
  · refine le_max_of_le_right (zpow_le_one_of_nonpos₀ one_le_two ?_)
    simp [place, zero]
  · have log := (zpow_two_le_iff (abs_pos.mpr zero) _).mpr le_rfl
    rw [place]
    rcases le_total (Int.log 2 |number| - (format.precision - 1 : Nat)) (-format.depth) with low | high
    · refine le_max_of_le_right (zpow_le_one_of_nonpos₀ one_le_two ?_)
      rw [max_eq_right low]
      omega
    · refine le_max_of_le_left ?_
      rw [max_eq_left high, zpow_sub₀ two_ne_zero, zpow_natCast]
      gcongr

theorem near_neg_iff {number : ℚ} {target : Int} :
    format.Near (-number) target ↔ format.Near number (-target) := by
  rw [Near, Near, place, place, abs_neg, Int.cast_neg, ← neg_add', abs_neg, sub_neg_eq_add]

/-- A number is near integers of its sign only. -/
theorem Near.nonneg {number : ℚ} {target : Int} (near : format.Near number target) (nonneg : 0 ≤ number) :
    0 ≤ target := by
  by_contra negative
  have below : (target : ℚ) ≤ -1 := by exact_mod_cast Int.le_sub_one_of_lt (not_le.mp negative)
  have slack := near.trans (format.slack_le number)
  have part : |number| / 2 ^ (format.precision - 1) ≤ number := by
    rw [abs_of_nonneg nonneg]
    exact div_le_self nonneg (one_le_pow₀ one_le_two)
  have most : max (|number| / 2 ^ (format.precision - 1)) 1 ≤ number + 1 :=
    max_le (part.trans (by linarith)) (by linarith)
  have := le_abs_self (number - target)
  linarith

/-- A small integer is near itself only. -/
theorem near_intCast_iff {number target : Int} (small : |number| ≤ 2 ^ (format.precision - 1)) :
    format.Near (number : ℚ) target ↔ number = target := by
  constructor
  · intro near
    have part : |(number : ℚ)| / 2 ^ (format.precision - 1) ≤ 1 := by
      rw [div_le_one (by positivity)]
      exact_mod_cast small
    have slack := near.trans (format.slack_le number)
    rw [max_eq_right part] at slack
    have close : |number - target| < 1 := by
      have : |(number : ℚ) - target| < 1 := slack.trans_lt (by norm_num)
      exact_mod_cast this
    rw [Int.abs_lt_one_iff] at close
    omega
  · rintro rfl
    rw [Near, sub_self, abs_zero]
    positivity

/-- A number that is not an integer, but differs from it by a power of ten, is not near to it. -/
theorem not_near_of_mul_zpow {number : ℚ} {power target : Int} (shifted : power ≠ 0) (nonzero : target ≠ 0)
    (same : number * 10 ^ power = target) : ¬ format.Near number target := by
  intro near
  have slack := near.trans (format.slack_le number)
  have one : (1 : ℚ) ≤ |(target : ℚ)| := by exact_mod_cast Int.one_le_abs nonzero
  have part : |number| / 2 ^ (format.precision - 1) ≤ |number| :=
    div_le_self (abs_nonneg number) (one_le_pow₀ one_le_two)
  have most : max (|number| / 2 ^ (format.precision - 1)) 1 ≤ max |number| 1 := max_le_max part le_rfl
  have factor : (0 : ℚ) < 10 ^ power := by positivity
  have size : |(target : ℚ)| = |number| * 10 ^ power := by
    rw [← same, abs_mul, abs_of_pos factor]
  have apart : |number - target| = |number| * |1 - 10 ^ power| := by
    rw [← same, ← abs_mul, mul_sub, mul_one]
  rw [apart] at slack
  have nonneg := abs_nonneg number
  rcases Int.lt_or_gt_of_ne shifted with small | large
  · have tenth : (10 : ℚ) ^ power ≤ 1 / 10 := by
      calc (10 : ℚ) ^ power ≤ 10 ^ (-1 : Int) := zpow_le_zpow_right₀ (by norm_num) (by omega)
        _ = 1 / 10 := by norm_num
    have whole : |number| * 10 ^ power ≤ |number| * (1 / 10) := by gcongr
    rw [abs_of_nonneg (a := 1 - 10 ^ power) (by linarith), mul_sub, mul_one] at slack
    rw [max_eq_left (a := |number|) (by linarith)] at most
    linarith
  · have ten : (10 : ℚ) ≤ 10 ^ power := by
      calc (10 : ℚ) = 10 ^ (1 : Int) := by norm_num
        _ ≤ 10 ^ power := zpow_le_zpow_right₀ (by norm_num) (by omega)
    have whole : |number| * 10 ≤ |number| * 10 ^ power := by gcongr
    rw [abs_of_nonpos (a := 1 - 10 ^ power) (by linarith), neg_sub, mul_sub, mul_one] at slack
    rcases le_total |number| 1 with below | above
    · rw [max_eq_right below] at most
      linarith
    · rw [max_eq_left above] at most
      linarith

theorem div_le_roundHalfEven (numerator denominator : Nat) :
    numerator / denominator ≤ roundHalfEven numerator denominator := by
  rw [roundHalfEven]
  split <;> omega

theorem le_div_place {number : ℚ} (positive : 0 < number) (deep : 0 < format.depth)
    (before : 0 ≤ format.place number) :
    (2 : ℚ) ^ (format.precision - 1) ≤ number / 2 ^ format.place number := by
  rw [le_div_iff₀ (by positivity), ← zpow_natCast, ← zpow_add₀ two_ne_zero, zpow_two_le_iff positive]
  rw [place, abs_of_pos positive] at before ⊢
  omega

/-- Numbers whose last place is not behind the point are not near a small integer. -/
theorem not_near_of_place_nonneg {number : ℚ} (positive : 0 < number) (deep : 0 < format.depth)
    (before : 0 ≤ format.place number) {target : Nat} (small : target < 2 ^ (format.precision - 1)) :
    ¬ format.Near number target := by
  have reached := le_div_place positive deep before
  rw [le_div_iff₀ (by positivity)] at reached
  have unit : (1 : ℚ) ≤ 2 ^ format.place number := one_le_zpow₀ one_le_two before
  have below : (target : ℚ) + 1 ≤ 2 ^ (format.precision - 1) := by exact_mod_cast small
  have range : (1 : ℚ) ≤ 2 ^ (format.precision - 1) := one_le_pow₀ one_le_two
  rw [Near, zpow_sub₀ two_ne_zero, zpow_one, Int.cast_natCast, not_le]
  have grows := mul_nonneg (sub_nonneg.mpr unit) (sub_nonneg.mpr range)
  exact lt_of_lt_of_le (by linarith) (le_abs_self _)

/-- An integer is an even number of places behind the point. -/
theorem roundHalfEven_mul_eq_iff {number : ℚ} {place : Int} (behind : place < 0) (nonzero : 0 < denominator)
    (scaled : (numerator : ℚ) / denominator = number / 2 ^ place) (target : Nat) :
    (roundHalfEven numerator denominator : ℚ) * 2 ^ place = target ↔
      |number - target| ≤ 2 ^ (place - 1) := by
  obtain ⟨places, rfl⟩ : ∃ places : Nat, place = -(places + 1 : Nat) := ⟨(-place - 1).toNat, by omega⟩
  have unit : (0 : ℚ) < 2 ^ (places + 1) := by positivity
  have even : target * 2 ^ (places + 1) % 2 = 0 := by
    rw [Nat.pow_succ, ← Nat.mul_assoc, Nat.mul_mod_left]
  have near := roundHalfEven_eq_iff numerator nonzero even
  rw [scaled, zpow_neg, zpow_natCast, div_inv_eq_mul, Nat.cast_mul, Nat.cast_pow, Nat.cast_ofNat, ← sub_mul,
    abs_mul, abs_of_pos unit, ← le_div_iff₀ unit] at near
  rw [zpow_neg, zpow_natCast, ← div_eq_mul_inv, div_eq_iff unit.ne', zpow_sub₀ two_ne_zero, zpow_neg,
    zpow_natCast, zpow_one]
  rw [show (2 ^ (places + 1) : ℚ)⁻¹ / 2 = 1 / 2 / 2 ^ (places + 1) by ring, ← near]
  norm_cast

theorem round_toNat?_eq_some_iff (deep : 0 < format.depth) (nonzero : 0 < denominator) {target : Nat}
    (small : target < 2 ^ (format.precision - 1)) :
    (format.round numerator denominator).toNat? = some target ↔
      format.Near (numerator / denominator) target := by
  rcases Nat.eq_zero_or_pos numerator with rfl | positive
  · have zero : format.Near ((0 : Int) : ℚ) target ↔ (0 : Int) = target := near_intCast_iff (by simp)
    rw [round, if_pos rfl, Dyadic.toNat?_eq_some_iff, Dyadic.toRat, Nat.cast_zero, zero_div,
      ← Int.cast_zero, zero]
    simp [eq_comm]
  have fraction : (0 : ℚ) < numerator / denominator := by positivity
  have scaled := scale_div numerator denominator (format.place (numerator / denominator))
  have divisor : 0 < (scale numerator denominator (format.place (numerator / denominator))).2 :=
    scale_snd_pos nonzero
  rw [round_eq format positive nonzero, Dyadic.toNat?_eq_some_iff, Dyadic.toRat]
  rcases lt_or_ge (format.place (numerator / denominator)) 0 with behind | before
  · exact roundHalfEven_mul_eq_iff behind divisor scaled target
  · refine iff_of_false (ne_of_gt ?_) (not_near_of_place_nonneg fraction deep before small)
    have reached := le_div_place fraction deep before
    rw [← scaled, le_div_iff₀ (by exact_mod_cast divisor)] at reached
    have most : 2 ^ (format.precision - 1) ≤ roundHalfEven _ _ :=
      ((Nat.le_div_iff_mul_le divisor).mpr (by exact_mod_cast reached)).trans (div_le_roundHalfEven _ _)
    calc (target : ℚ)
        < roundHalfEven _ _ := by exact_mod_cast small.trans_le most
      _ ≤ roundHalfEven _ _ * 2 ^ format.place (numerator / denominator) :=
        le_mul_of_one_le_right (by positivity) (one_le_zpow₀ one_le_two before)

end Format

namespace Decimal

/-- The number that a decimal stands for. -/
def toRat (decimal : Decimal) : ℚ :=
  (if decimal.negative then -1 else 1) * (decimal.digits * 10 ^ decimal.exponent)

theorem fraction_snd_pos (decimal : Decimal) : 0 < decimal.fraction.2 := by
  rw [fraction]
  split
  · exact one_pos
  · exact Nat.pow_pos (by decide)

theorem fraction_div (decimal : Decimal) :
    (decimal.fraction.1 : ℚ) / decimal.fraction.2 = decimal.digits * 10 ^ decimal.exponent := by
  rw [fraction]
  split
  · rename_i nonneg
    obtain ⟨power, same⟩ := Int.eq_ofNat_of_zero_le nonneg
    simp [same]
  · obtain ⟨power, same⟩ : ∃ power : Nat, decimal.exponent = -power :=
      ⟨(-decimal.exponent).toNat, by omega⟩
    simp [same, div_eq_mul_inv]

/-- A decimal comes to the small integer that it is near to in 53 binary digits. -/
theorem toInt?_eq_some_iff (decimal : Decimal) {target : Int} (small : target.natAbs < 2 ^ 52) :
    decimal.toInt? = some target ↔ double.Near decimal.toRat target := by
  have nonneg : (0 : ℚ) ≤ decimal.digits * 10 ^ decimal.exponent := by positivity
  have rounded (size : Nat) (below : size < 2 ^ 52) :
      (double.round decimal.fraction.1 decimal.fraction.2).toNat? = some size ↔
        double.Near (decimal.digits * 10 ^ decimal.exponent) size := by
    rw [← fraction_div]
    exact Format.round_toNat?_eq_some_iff (by decide) decimal.fraction_snd_pos below
  have signed : decimal.toInt? = some target ↔
      ∃ size : Nat, (double.round decimal.fraction.1 decimal.fraction.2).toNat? = some size ∧
        (if decimal.negative then -(size : Int) else size) = target := by
    rw [toInt?, roundTo]
    cases (double.round decimal.fraction.1 decimal.fraction.2).toNat? <;> simp
  rw [signed, toRat]
  cases decimal.negative with
  | false =>
    simp only [Bool.false_eq_true, if_false, one_mul]
    constructor
    · rintro ⟨size, found, rfl⟩
      exact (rounded size small).mp found
    · intro near
      obtain ⟨size, rfl⟩ := Int.eq_ofNat_of_zero_le (near.nonneg nonneg)
      exact ⟨size, (rounded size small).mpr near, rfl⟩
  | true =>
    simp only [if_true, neg_one_mul, Format.near_neg_iff]
    constructor
    · rintro ⟨size, found, rfl⟩
      rw [neg_neg]
      exact (rounded size (by omega)).mp found
    · intro near
      obtain ⟨size, same⟩ := Int.eq_ofNat_of_zero_le (near.nonneg nonneg)
      rw [same] at near
      exact ⟨size, (rounded size (by omega)).mpr near, by omega⟩

end Decimal

end RowStore.Number
