import RowStore.Number.Single
import RowStore.Proofs.Number.Nearness

/-!
The total order of single-precision numbers. Numbers stand in it by value, the negative zero before the
positive one; what is not a number stands at the two ends, by its sign and payload. The rank of a number
is its place in that order.
-/

namespace RowStore.Number.Single

variable {number left right : Single}

/-- The finite number with the given bits below the sign. -/
def sizeAt (magnitude : Nat) : ℚ :=
  (magnitude % leadingBit + (if magnitude / leadingBit = 0 then 0 else leadingBit) : Nat) *
    2 ^ (((magnitude / leadingBit - 1 : Nat) : Int) - format.depth)

theorem toRat_toDyadic (number : Single) : number.toDyadic.toRat = sizeAt number.magnitude := rfl

theorem sizeAt_add {fraction : Nat} (inside : fraction < leadingBit) (exponent : Nat) :
    sizeAt (leadingBit * exponent + fraction) =
      (fraction + (if exponent = 0 then 0 else leadingBit) : Nat) *
        2 ^ (((exponent - 1 : Nat) : Int) - format.depth) := by
  rw [sizeAt, Nat.mul_add_div (by decide), Nat.div_eq_of_lt inside, Nat.add_zero, Nat.mul_add_mod,
    Nat.mod_eq_of_lt inside]

/-- A number grows with its bits, also where the fraction is carried over into the exponent. -/
theorem strictMono_sizeAt : StrictMono sizeAt := by
  refine strictMono_nat_of_lt_succ fun magnitude => ?_
  have inside : magnitude % leadingBit < leadingBit := Nat.mod_lt _ (by decide)
  rw [← Nat.div_add_mod magnitude leadingBit]
  generalize magnitude / leadingBit = exponent, magnitude % leadingBit = fraction at inside ⊢
  rcases Nat.lt_or_eq_of_le (Nat.succ_le_of_lt inside) with within | last
  · rw [Nat.add_assoc, sizeAt_add inside, sizeAt_add within]
    gcongr
    omega
  · have carried : leadingBit * exponent + fraction + 1 = leadingBit * (exponent + 1) + 0 := by
      rw [Nat.mul_succ]
      omega
    rw [carried, sizeAt_add inside, sizeAt_add (by decide)]
    have most : fraction < leadingBit := inside
    cases exponent with
    | zero =>
      simp only [if_true, if_neg (Nat.succ_ne_zero _), Nat.zero_add, Nat.zero_sub]
      gcongr
      omega
    | succ exponent =>
      simp only [if_neg (Nat.succ_ne_zero _), Nat.add_sub_cancel]
      have doubled : (2 : ℚ) ^ (((exponent + 1 : Nat) : Int) - format.depth) =
          2 * 2 ^ ((exponent : Int) - format.depth) := by
        rw [mul_comm, ← zpow_add_one₀ two_ne_zero]
        congr 1
        push_cast
        ring
      rw [doubled, ← mul_assoc]
      gcongr
      exact_mod_cast (by omega : fraction + leadingBit < (0 + leadingBit) * 2)

/-- The size of a number, infinite where its bits say so. -/
noncomputable def size (number : Single) : EReal :=
  if number.magnitude = infinityBits then ⊤ else ((number.toDyadic.toRat : ℝ) : EReal)

/-- The number that the bits stand for, if they stand for one. -/
noncomputable def value (number : Single) : EReal := if number.negative then -number.size else number.size

/-- Bits that stand for no number. -/
def IsNaN (number : Single) : Prop := infinityBits < number.magnitude

/-- The bits of the fraction. Where there is no number the highest of them tells the quiet ones, and the
others are the payload. -/
def fraction (number : Single) : Nat := number.magnitude % leadingBit

/-- The total order, case by case: of two numbers, of a number and none, and of two that are none. -/
inductive Precedes (left right : Single) : Prop where
  | smaller (number : ¬ left.IsNaN) (other : ¬ right.IsNaN) (less : left.value < right.value) :
      Precedes left right
  | zeros (number : ¬ left.IsNaN) (other : ¬ right.IsNaN) (equal : left.value = right.value)
      (negative : left.negative = true) (positive : right.negative = false) : Precedes left right
  | below (none : left.IsNaN) (other : ¬ right.IsNaN) (negative : left.negative = true) :
      Precedes left right
  | above (number : ¬ left.IsNaN) (none : right.IsNaN) (positive : right.negative = false) :
      Precedes left right
  | ends (none : left.IsNaN) (other : right.IsNaN) (negative : left.negative = true)
      (positive : right.negative = false) : Precedes left right
  | payloads (none : left.IsNaN) (other : right.IsNaN) (positive : left.negative = false)
      (alike : right.negative = false) (less : left.fraction < right.fraction) : Precedes left right
  | negativePayloads (none : left.IsNaN) (other : right.IsNaN) (negative : left.negative = true)
      (alike : right.negative = true) (less : right.fraction < left.fraction) : Precedes left right

theorem magnitude_lt (number : Single) : number.magnitude < signBit := Nat.mod_lt _ (by decide)

theorem sizeAt_nonneg (magnitude : Nat) : 0 ≤ sizeAt magnitude := by
  rw [sizeAt]
  positivity

theorem size_nonneg (number : Single) : 0 ≤ number.size := by
  rw [size]
  split
  · exact le_top
  · exact_mod_cast sizeAt_nonneg number.magnitude

theorem neg_size_nonpos (number : Single) : -number.size ≤ 0 := by
  rw [← neg_zero, EReal.neg_le_neg_iff]
  exact number.size_nonneg

/-- The sizes of numbers are ordered as their bits are. -/
theorem size_lt_size_iff (first : ¬ left.IsNaN) (second : ¬ right.IsNaN) :
    left.size < right.size ↔ left.magnitude < right.magnitude := by
  rw [IsNaN, not_lt] at first second
  rw [size, size]
  by_cases leftInfinite : left.magnitude = infinityBits
  · rw [if_pos leftInfinite]
    exact iff_of_false not_top_lt (by omega)
  · by_cases rightInfinite : right.magnitude = infinityBits
    · rw [if_neg leftInfinite, if_pos rightInfinite]
      exact iff_of_true (EReal.coe_lt_top _) (by omega)
    · rw [if_neg leftInfinite, if_neg rightInfinite, EReal.coe_lt_coe_iff, Rat.cast_lt, toRat_toDyadic,
        toRat_toDyadic, strictMono_sizeAt.lt_iff_lt]

/-- Behind the bits of infinity only the fraction counts. -/
theorem magnitude_eq_of_isNaN (none : number.IsNaN) :
    number.magnitude = infinityBits + number.fraction := by
  have limit := number.magnitude_lt
  rw [IsNaN] at none
  rw [fraction]
  unfold infinityBits signBit leadingBit at *
  omega

/-- The ranks of two numbers are ordered as their values are, and a zero by its sign. -/
theorem rank_lt_of_numbers (first : ¬ left.IsNaN) (second : ¬ right.IsNaN) :
    left.rank < right.rank ↔ left.value < right.value ∨
      left.value = right.value ∧ left.negative = true ∧ right.negative = false := by
  have forward := size_lt_size_iff first second
  have backward := size_lt_size_iff second first
  have below : -left.size ≤ right.size := left.neg_size_nonpos.trans right.size_nonneg
  have above : -right.size ≤ left.size := right.neg_size_nonpos.trans left.size_nonneg
  rw [rank, rank, value, value]
  cases left.negative <;> cases right.negative <;>
    simp only [Bool.false_eq_true, if_false, if_true, and_true, and_false, or_false, reduceCtorEq]
  case false.false => rw [forward, Nat.cast_lt]
  case false.true => exact iff_of_false (by omega) (not_lt.mpr above)
  case true.false => exact iff_of_true (by omega) below.lt_or_eq
  case true.true => rw [EReal.neg_lt_neg_iff, backward]; omega

/-- Among two that are no numbers the ranks are ordered by sign and fraction. -/
theorem rank_lt_of_isNaN (first : left.IsNaN) (second : right.IsNaN) :
    left.rank < right.rank ↔
      left.negative = true ∧ right.negative = false ∨
      left.negative = false ∧ right.negative = false ∧ left.fraction < right.fraction ∨
      left.negative = true ∧ right.negative = true ∧ right.fraction < left.fraction := by
  rw [rank, rank, magnitude_eq_of_isNaN first, magnitude_eq_of_isNaN second]
  cases left.negative <;> cases right.negative <;> simp <;> omega

theorem rank_lt_of_left_isNaN (first : left.IsNaN) (second : ¬ right.IsNaN) :
    left.rank < right.rank ↔ left.negative = true := by
  rw [IsNaN] at first second
  rw [rank, rank]
  cases left.negative <;> cases right.negative <;> simp <;> omega

theorem rank_lt_of_right_isNaN (first : ¬ left.IsNaN) (second : right.IsNaN) :
    left.rank < right.rank ↔ right.negative = false := by
  rw [IsNaN] at first second
  rw [rank, rank]
  cases left.negative <;> cases right.negative <;> simp <;> omega

/-- The rank of a number tells its place in the total order. -/
theorem rank_lt_rank_iff : left.rank < right.rank ↔ left.Precedes right := by
  rcases Classical.em left.IsNaN with first | first <;>
    rcases Classical.em right.IsNaN with second | second
  case inr.inr =>
    rw [rank_lt_of_numbers first second]
    constructor
    · rintro (less | ⟨equal, negative, positive⟩)
      · exact .smaller first second less
      · exact .zeros first second equal negative positive
    · rintro (⟨_, _, less⟩ | ⟨_, _, equal, negative, positive⟩ | _ | _ | _ | _ | _)
      · exact .inl less
      · exact .inr ⟨equal, negative, positive⟩
      all_goals contradiction
  case inl.inr =>
    rw [rank_lt_of_left_isNaN first second]
    constructor
    · exact .below first second
    · rintro (_ | _ | ⟨_, _, negative⟩ | _ | _ | _ | _)
      case below => exact negative
      all_goals contradiction
  case inr.inl =>
    rw [rank_lt_of_right_isNaN first second]
    constructor
    · exact .above first second
    · rintro (_ | _ | _ | ⟨_, _, positive⟩ | _ | _ | _)
      case above => exact positive
      all_goals contradiction
  case inl.inl =>
    rw [rank_lt_of_isNaN first second]
    constructor
    · rintro (⟨negative, positive⟩ | ⟨positive, alike, less⟩ | ⟨negative, alike, less⟩)
      · exact .ends first second negative positive
      · exact .payloads first second positive alike less
      · exact .negativePayloads first second negative alike less
    · rintro (_ | _ | _ | _ | ⟨_, _, negative, positive⟩ | ⟨_, _, positive, alike, less⟩ |
        ⟨_, _, negative, alike, less⟩)
      case ends => exact .inl ⟨negative, positive⟩
      case payloads => exact .inr (.inl ⟨positive, alike, less⟩)
      case negativePayloads => exact .inr (.inr ⟨negative, alike, less⟩)
      all_goals contradiction

end RowStore.Number.Single
