import RowStore.Number.Numeral

/-!
Fractions rounded to a binary floating-point format: to the nearest number of the format, a
fraction half-way between two of them to the one with the even significand.
-/

namespace RowStore.Number

/-- Binary numbers of at most `precision` digits whose last place is `2 ^ (-depth)` or higher. -/
structure Format where
  precision : Nat
  depth : Nat

/-- The number `significand * 2 ^ exponent`. -/
structure Dyadic where
  significand : Nat
  exponent : Int
  deriving DecidableEq, Repr

/-- A fraction rounded to an integer, a half to the even neighbour. -/
def roundHalfEven (numerator denominator : Nat) : Nat :=
  let quotient := numerator / denominator
  let doubled := 2 * (numerator % denominator)
  if doubled < denominator || (doubled == denominator && quotient % 2 == 0) then quotient
  else quotient + 1

/-- A fraction over a power of two, as a fraction again. -/
def scale (numerator denominator : Nat) (exponent : Int) : Nat × Nat :=
  if 0 ≤ exponent then (numerator, denominator <<< exponent.toNat)
  else (numerator <<< (-exponent).toNat, denominator)

/-- The exponent of the highest power of two not above a positive fraction. -/
def leadingExponent (numerator denominator : Nat) : Int :=
  let estimate : Int := (Nat.log2 numerator : Int) - Nat.log2 denominator
  let (numerator, denominator) := scale numerator denominator estimate
  if denominator ≤ numerator then estimate else estimate - 1

/-- The number of the format nearest to a fraction. -/
def Format.round (format : Format) (numerator denominator : Nat) : Dyadic :=
  if numerator = 0 then ⟨0, -(format.depth : Int)⟩
  else
    let lastPlace : Int :=
      max (leadingExponent numerator denominator - (format.precision - 1 : Nat)) (-(format.depth : Int))
    let (numerator, denominator) := scale numerator denominator lastPlace
    ⟨roundHalfEven numerator denominator, lastPlace⟩

/-- A decimal without its sign, as a fraction. -/
def Decimal.fraction (decimal : Decimal) : Nat × Nat :=
  if 0 ≤ decimal.exponent then (decimal.digits * Nat.pow 10 decimal.exponent.toNat, 1)
  else (decimal.digits, Nat.pow 10 (-decimal.exponent).toNat)

def Decimal.roundTo (format : Format) (decimal : Decimal) : Dyadic :=
  format.round decimal.fraction.1 decimal.fraction.2

/-- The integer that a dyadic number is, if it is one. -/
def Dyadic.toNat? (number : Dyadic) : Option Nat :=
  let (numerator, denominator) := scale number.significand 1 (-number.exponent)
  if numerator % denominator = 0 then some (numerator / denominator) else none

/-- Numbers of 53 binary digits, in which the integers of a numeral are recognised. -/
def double : Format := ⟨53, 1074⟩

/-- The integer that a decimal is once it is rounded to 53 binary digits. -/
def Decimal.toInt? (decimal : Decimal) : Option Int :=
  (decimal.roundTo double).toNat?.map fun size => if decimal.negative then -(size : Int) else size

end RowStore.Number
