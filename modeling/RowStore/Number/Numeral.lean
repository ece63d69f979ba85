import RowStore.Text.Name

/-!
Numbers as they are written: an integer as a sign and digits, a decimal with an optional fraction
and an optional power of ten, or the name of infinity or of no number at all.
-/

namespace RowStore.Number

/-- A finite number as written: the integer `digits` times the power of ten `exponent`. -/
structure Decimal where
  negative : Bool
  digits : Nat
  exponent : Int
  deriving DecidableEq, Repr

/-- What a numeral stands for. -/
inductive Numeral where
  | finite (decimal : Decimal)
  | infinity (negative : Bool)
  | notANumber (negative : Bool)
  deriving DecidableEq, Repr

/-- A leading sign, and what follows it. -/
def takeSign : List Char → Bool × List Char
  | '-' :: rest => (true, rest)
  | '+' :: rest => (false, rest)
  | chars => (false, chars)

def digitValue (c : Char) : Nat := c.toNat - '0'.toNat

/-- Places of a base, the lowest first, joined two by two to places of its square. -/
def joinPairs (base : Nat) : List Nat → List Nat
  | low :: high :: rest => (low + base * high) :: joinPairs base rest
  | places => places

/-- The number with the given places, the lowest first. Each round halves their number, so there are
never more rounds to go than places. -/
def ofPlaces : (rounds base : Nat) → List Nat → Nat
  | rounds + 1, base, low :: high :: rest =>
    ofPlaces rounds (base * base) (joinPairs base (low :: high :: rest))
  | _, _, places => places.headD 0

/-- The number that decimal digits spell. -/
def ofDigits (digits : List Char) : Nat :=
  ofPlaces digits.length 10 (digits.reverse.map digitValue)

/-- One or more decimal digits and nothing else. -/
def isDigits (chars : List Char) : Bool := !chars.isEmpty && chars.all Char.isDigit

/-- An integer written as digits behind an optional sign. -/
def readInt? (text : String) : Option Int :=
  let (negative, digits) := takeSign text.toList
  if isDigits digits then some (if negative then -(ofDigits digits : Int) else ofDigits digits)
  else none

/-- The size of a power of ten. Digits that follow once it has reached 65536 do not count: the
number is then as good as zero or infinite. -/
def exponentSize (digits : List Char) : Nat :=
  digits.foldl (fun value c => if value < 65536 then value * 10 + digitValue c else value) 0

/-- The power of ten at the end of a numeral; none written is the power zero. -/
def readExponent? : List Char → Option Int
  | [] => some 0
  | mark :: rest =>
    let (negative, digits) := takeSign rest
    if (mark == 'e' || mark == 'E') && isDigits digits then
      some (if negative then -(exponentSize digits : Int) else exponentSize digits)
    else none

/-- Digits with an optional point among them, at least one of them, and an optional power of ten. -/
def readDecimal? (negative : Bool) (chars : List Char) : Option Decimal :=
  let whole := chars.takeWhile Char.isDigit
  let (fraction, rest) :=
    match chars.dropWhile Char.isDigit with
    | '.' :: rest => (rest.takeWhile Char.isDigit, rest.dropWhile Char.isDigit)
    | rest => ([], rest)
  if whole.isEmpty && fraction.isEmpty then none
  else (readExponent? rest).map fun exponent =>
    ⟨negative, ofDigits (whole ++ fraction), exponent - fraction.length⟩

/-- A decimal, `inf`, `infinity` or `nan` behind an optional sign, the names in any case. -/
def readNumeral? (text : String) : Option Numeral :=
  let (negative, chars) := takeSign text.toList
  let name := Text.fold (String.ofList chars)
  if name == "INF" || name == "INFINITY" then some (.infinity negative)
  else if name == "NAN" then some (.notANumber negative)
  else (readDecimal? negative chars).map .finite

end RowStore.Number
