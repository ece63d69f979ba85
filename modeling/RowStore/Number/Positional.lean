/-!
Numbers as digits around a decimal point, without an exponent. A binary fraction is written with
the fewest decimals that single it out among the numbers of its format.
-/

namespace RowStore.Number

/-- The number `number / 10 ^ places`, with a digit before the point and `places` digits after. -/
def positional (number places : Nat) : String :=
  let digits := Nat.toDigits 10 number
  let padded := List.replicate (places + 1 - digits.length) '0' ++ digits
  let whole := padded.length - places
  String.ofList (padded.take whole ++ '.' :: padded.drop whole)

/-- The numbers closer to a binary fraction than to its neighbours in the format: those between
`low` and `high` quarters of its last place, the ends too if they are `closed`. -/
structure Interval where
  low : Nat
  high : Nat
  closed : Bool

/-- The interval of a significand. Below a power of two the neighbour is half as far. -/
def Interval.around (significand : Nat) (halfBelow : Bool) : Interval :=
  ⟨4 * significand - (if halfBelow then 1 else 2), 4 * significand + 2, significand % 2 == 0⟩

/-- Whether `number / 10 ^ places` lies in an interval whose last place is `2 ^ (-shift)`. -/
def Interval.contains (interval : Interval) (shift number places : Nat) : Bool :=
  let scaled := number <<< (shift + 2)
  let low := interval.low * Nat.pow 10 places
  let high := interval.high * Nat.pow 10 places
  (low < scaled && scaled < high) || (interval.closed && (scaled == low || scaled == high))

/-- The two decimals of `places` places around `significand / 2 ^ shift`, the nearer one first and
the upper one of two equally near. -/
def neighbours (significand shift places : Nat) : List Nat :=
  let scaled := significand * Nat.pow 10 places
  let unit := 1 <<< shift
  let below := scaled / unit
  if 2 * (scaled % unit) < unit then [below, below + 1] else [below + 1, below]

/-- The decimal with the fewest places that lies in the interval of `significand / 2 ^ shift`, as
its digits and the number of places; `shift` places write the fraction itself. -/
def fewestPlaces (significand shift : Nat) (interval : Interval) : Nat × Nat :=
  let found := (List.range shift).findSome? fun places =>
    ((neighbours significand shift places).find? (interval.contains shift · places)).map (·, places)
  found.getD (significand * Nat.pow 5 shift, shift)

end RowStore.Number
