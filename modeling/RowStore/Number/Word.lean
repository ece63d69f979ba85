import RowStore.Number.Numeral

/-!
Numbers of 32 bits written in decimal digits, an optional plus sign before them. The first character
that is no digit, or at which the number grows too large, is the fault.
-/

namespace RowStore.Number

/-- Why digits do not spell a number of 32 bits. -/
inductive WordFault where
  | noDigits
  | invalidDigit
  | tooLarge
  deriving DecidableEq, Repr

def WordFault.message : WordFault → String
  | noDigits => "cannot parse integer from empty string"
  | invalidDigit => "invalid digit found in string"
  | tooLarge => "number too large to fit in target type"

/-- Reads digits behind those that spell `value`. -/
def readWordFrom (value : Nat) : List Char → Except WordFault UInt32
  | [] => .ok (UInt32.ofNat value)
  | c :: rest =>
    if !c.isDigit then .error .invalidDigit
    else if UInt32.size ≤ value * 10 + digitValue c then .error .tooLarge
    else readWordFrom (value * 10 + digitValue c) rest

def readWord (chars : List Char) : Except WordFault UInt32 :=
  match chars with
  | [] => .error .noDigits
  | ['+'] => .error .invalidDigit
  | '+' :: digits => readWordFrom 0 digits
  | digits => readWordFrom 0 digits

end RowStore.Number
