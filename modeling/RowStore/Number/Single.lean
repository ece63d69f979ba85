import RowStore.Number.Rounding
import RowStore.Number.Positional

/-!
Single-precision numbers, held as their 32 bits: a sign, eight bits of exponent and 23 bits of
fraction. Two of them are equal only if all bits are, so a zero has a sign and there are many that
are not numbers.
-/

namespace RowStore.Number

/-- A single-precision number by its bits. -/
structure Single where
  bits : UInt32
  deriving DecidableEq, Repr

namespace Single

def format : Format := ⟨24, 149⟩

/-- The bit of the sign. -/
def signBit : Nat := 0x80000000

/-- The lowest bit of the exponent, which is also the leading bit of a normal significand. -/
def leadingBit : Nat := 0x800000

/-- The bits of positive infinity. -/
def infinityBits : Nat := 0x7F800000

/-- The bits of a quiet positive non-number. -/
def notANumberBits : Nat := 0x7FC00000

/-- A sign and the bits below it. -/
def ofMagnitude (negative : Bool) (magnitude : Nat) : Single :=
  ⟨UInt32.ofNat (if negative then signBit + magnitude else magnitude)⟩

/-- A number of the format with a sign; one beyond the largest is infinite. As the leading bit of
a normal significand adds one to the exponent, the bits are the sum of the two. -/
def ofDyadic (negative : Bool) (number : Dyadic) : Single :=
  ofMagnitude negative
    (min infinityBits ((number.exponent + format.depth).toNat * leadingBit + number.significand))

/-- The single-precision number nearest to a numeral. -/
def ofNumeral : Numeral → Single
  | .finite decimal => ofDyadic decimal.negative (decimal.roundTo format)
  | .infinity negative => ofMagnitude negative infinityBits
  | .notANumber negative => ofMagnitude negative notANumberBits

/-- The single-precision number nearest to what a text writes. -/
def read? (text : String) : Option Single := (readNumeral? text).map ofNumeral

def negative (number : Single) : Bool := signBit ≤ number.bits.toNat

/-- The bits without the sign. -/
def magnitude (number : Single) : Nat := number.bits.toNat % signBit

/-- The exponent as stored. -/
def storedExponent (number : Single) : Nat := number.magnitude / leadingBit

/-- The significand, with its leading bit unless the number is subnormal. -/
def significand (number : Single) : Nat :=
  number.magnitude % leadingBit + (if number.storedExponent = 0 then 0 else leadingBit)

/-- The magnitude of a finite number. -/
def toDyadic (number : Single) : Dyadic :=
  ⟨number.significand, ((number.storedExponent - 1 : Nat) : Int) - format.depth⟩

/-- A finite number as a decimal: an integer with one zero after the point, any other number with
the fewest decimals that read back. -/
def finiteText (number : Single) : String :=
  match number.toDyadic.toNat? with
  | some size => positional (size * 10) 1
  | none =>
    let shift := (-number.toDyadic.exponent).toNat
    let halfBelow := number.significand == leadingBit && 1 < number.storedExponent
    let (digits, places) := fewestPlaces number.significand shift
      (.around number.significand halfBelow)
    positional digits places

def text (number : Single) : String :=
  if infinityBits < number.magnitude then "NaN"
  else
    let size := if number.magnitude = infinityBits then "inf" else number.finiteText
    if number.negative then "-" ++ size else size

/-- The place of a number in the total order: negative numbers by falling magnitude, then positive
ones by rising magnitude, so that the negative zero comes before the positive one and the
non-numbers stand at the two ends. -/
def rank (number : Single) : Int :=
  if number.negative then -(number.magnitude : Int) - 1 else number.magnitude

end Single

end RowStore.Number
