import RowStore.Proofs.Number.Digits
import RowStore.Proofs.Number.Nearness

/-!
Decimals as they are written, and the number that each one writes. A reader takes every one of them for
that number, unless it has an exponent whose digits do not all count.
-/

namespace RowStore.Number

theorem isDigits_iff {chars : List Char} :
    isDigits chars = true ↔ chars ≠ [] ∧ ∀ c ∈ chars, c.isDigit = true := by
  rw [isDigits, Bool.and_eq_true, List.all_eq_true]
  simp

/-- A sign as it is written. -/
inductive Sign where
  | none
  | plus
  | minus
  deriving DecidableEq, Repr

namespace Sign

def chars : Sign → List Char
  | none => []
  | plus => ['+']
  | minus => ['-']

def isMinus : Sign → Bool
  | minus => true
  | none | plus => false

/-- A number under the sign. -/
def apply (sign : Sign) (size : Nat) : Int := if sign.isMinus then -(size : Int) else size

end Sign

/-- A power of ten as it is written behind a number. -/
structure Power where
  mark : Char
  sign : Sign
  digits : List Char
  marked : (mark == 'e' || mark == 'E') = true := by decide
  numeric : isDigits digits = true := by decide
  deriving Repr

def Power.chars (power : Power) : List Char := power.mark :: (power.sign.chars ++ power.digits)

/-- A decimal as it is written: digits behind a sign, then perhaps a point with more digits behind it and a
power of ten. There is a digit before the power. -/
structure Written where
  sign : Sign
  whole : List Char
  fraction : Option (List Char)
  power : Option Power
  numeric : isDigits (whole ++ fraction.getD []) = true := by decide

namespace Written

variable {written : Written}

/-- The digits before the power. -/
def digits (written : Written) : List Char := written.whole ++ written.fraction.getD []

/-- What stands behind the digits of the whole part. -/
def tail (written : Written) : List Char :=
  written.fraction.elim [] ('.' :: ·) ++ written.power.elim [] Power.chars

/-- The decimal letter by letter. -/
def text (written : Written) : String :=
  String.ofList (written.sign.chars ++ (written.whole ++ written.tail))

/-- The size of the power of ten as it is written. -/
def powerSize (written : Written) : Nat := written.power.elim 0 (spelled ·.digits)

/-- The digits of a decimal with a power of ten of the given size. -/
def withPower (written : Written) (size : Nat) : Decimal :=
  ⟨written.sign.isMinus, spelled written.digits,
    (written.power.elim .none Power.sign).apply size - (written.fraction.getD []).length⟩

/-- The number that is written. -/
def value (written : Written) : ℚ := (written.withPower written.powerSize).toRat

/-- The size of the power of ten as it is read: digits behind those that reach the bound do not count. -/
def powerRead (written : Written) : Nat := written.power.elim 0 (exponentSize ·.digits)

/-- The number that is read. -/
def valueRead (written : Written) : ℚ := (written.withPower written.powerRead).toRat

theorem powerRead_eq (small : written.powerSize < exponentBound) : written.powerRead = written.powerSize := by
  rw [powerRead, powerSize] at *
  cases power : written.power with
  | none => rfl
  | some found =>
    rw [power] at small
    exact exponentSize_eq small

theorem powerRead_lt (written : Written) : written.powerRead < exponentBound := by
  rw [powerRead]
  cases written.power with
  | none => decide
  | some power => exact exponentSize_lt (isDigits_iff.mp power.numeric).2

end Written

/-- A reader takes the sign off digits, and whatever else does not begin with one. -/
theorem takeSign_chars (sign : Sign) {rest : List Char} {first : Char} {later : List Char}
    (begins : rest = first :: later) (other : first ≠ '-' ∧ first ≠ '+') :
    takeSign (sign.chars ++ rest) = (sign.isMinus, rest) := by
  subst begins
  cases sign with
  | plus => rfl
  | minus => rfl
  | none =>
    rw [Sign.chars, List.nil_append, takeSign]
    · rfl
    · rintro _ ⟨⟩
      exact other.1 rfl
    · rintro _ ⟨⟩
      exact other.2 rfl

theorem toUpper_of_isDigit {c : Char} (digit : c.isDigit = true) : c.toUpper = c := by
  have high : c.val ≤ '9'.val := of_decide_eq_true (Bool.and_eq_true_iff.mp digit).2
  have below : ¬ 'a'.val ≤ c.val := UInt32.not_le.mpr (UInt32.lt_of_le_of_lt high (by decide))
  rw [Char.toUpper, dif_neg fun lower => below lower.1]

theorem ne_sign_of_isDigit {c : Char} (digit : c.isDigit = true) : c ≠ '-' ∧ c ≠ '+' := by
  constructor <;> rintro rfl <;> exact absurd digit (by decide)

/-- Digits are read up to the first character that is none. -/
theorem span_isDigit {digits rest : List Char} (all : ∀ c ∈ digits, c.isDigit = true)
    (ends : ∀ c ∈ rest.head?, c.isDigit = false) :
    (digits ++ rest).takeWhile Char.isDigit = digits ∧ (digits ++ rest).dropWhile Char.isDigit = rest := by
  rw [List.takeWhile_append_of_pos all, List.dropWhile_append_of_pos all]
  cases rest with
  | nil => simp
  | cons c later => simp [ends c (by simp)]

namespace Power

variable {power : Power}

theorem mark_isDigit (power : Power) : power.mark.isDigit = false := by
  rcases Bool.or_eq_true_iff.mp power.marked with mark | mark <;> rw [beq_iff_eq.mp mark] <;> decide

/-- A power of ten is read with those of its digits that count. -/
theorem readExponent?_chars (power : Power) :
    readExponent? power.chars = some (power.sign.apply (exponentSize power.digits)) := by
  obtain ⟨nonempty, all⟩ := isDigits_iff.mp power.numeric
  obtain ⟨first, later, begins⟩ := List.exists_cons_of_ne_nil nonempty
  have other := ne_sign_of_isDigit (all first (begins ▸ List.mem_cons_self))
  rw [chars, readExponent?, takeSign_chars power.sign begins other]
  simp only [power.marked, power.numeric, Bool.and_self, if_true]
  rfl

end Power

namespace Written

variable {written : Written}

theorem readExponent?_tail (power : Option Power) :
    readExponent? (power.elim [] Power.chars) =
      some ((power.elim .none Power.sign).apply (power.elim 0 (exponentSize ·.digits))) := by
  cases power with
  | none => rfl
  | some power => exact power.readExponent?_chars

theorem not_isDigit_of_head (power : Option Power) :
    ∀ c ∈ (power.elim [] Power.chars).head?, c.isDigit = false := by
  cases power with
  | none => simp
  | some power => simpa [Power.chars] using power.mark_isDigit

theorem isDigit_of_mem_whole (written : Written) : ∀ c ∈ written.whole, c.isDigit = true := fun c member =>
  (isDigits_iff.mp written.numeric).2 c (List.mem_append_left _ member)

theorem not_isDigit_of_head_tail (written : Written) : ∀ c ∈ written.tail.head?, c.isDigit = false := by
  rw [tail]
  cases written.fraction with
  | none => exact not_isDigit_of_head _
  | some places => simp

/-- Behind a point stand the digits of the fraction, and behind them the power of ten. -/
theorem span_of_tail {after : List Char} (point : written.tail = '.' :: after) :
    after.takeWhile Char.isDigit = written.fraction.getD [] ∧
      after.dropWhile Char.isDigit = written.power.elim [] Power.chars := by
  have all := (isDigits_iff.mp written.numeric).2
  rw [tail] at point
  cases fraction : written.fraction with
  | some places =>
    rw [fraction] at point all
    obtain rfl : places ++ written.power.elim [] Power.chars = after := (List.cons.inj point).2
    exact span_isDigit (fun c member => all c (List.mem_append_right _ member)) (not_isDigit_of_head _)
  | none =>
    rw [fraction, Option.elim_none, List.nil_append] at point
    cases raised : written.power with
    | none =>
      rw [raised] at point
      cases point
    | some power =>
      rw [raised] at point
      have mark := power.marked
      rw [(List.cons.inj point).1] at mark
      exact absurd mark (by decide)

theorem tail_eq_of_no_point (plain : ∀ after, written.tail ≠ '.' :: after) :
    written.fraction = none ∧ written.tail = written.power.elim [] Power.chars := by
  rw [tail] at plain ⊢
  cases fraction : written.fraction with
  | some places =>
    rw [fraction] at plain
    exact absurd rfl (plain _)
  | none => exact ⟨rfl, rfl⟩

theorem readDecimal?_body (written : Written) (negative : Bool) :
    readDecimal? negative (written.whole ++ written.tail) =
      some ⟨negative, spelled written.digits, (written.withPower written.powerRead).exponent⟩ := by
  obtain ⟨taken, rest⟩ := span_isDigit written.isDigit_of_mem_whole written.not_isDigit_of_head_tail
  have nonempty : ¬ (written.whole.isEmpty && (written.fraction.getD []).isEmpty) = true := by
    have digits := (isDigits_iff.mp written.numeric).1
    simpa [List.isEmpty_iff] using digits
  rw [readDecimal?]
  simp only [taken, rest]
  split
  · rename_i after point
    obtain ⟨places, behind⟩ := span_of_tail point
    simp only [places, behind, if_neg nonempty, readExponent?_tail, ofDigits_eq]
    rfl
  · rename_i plain
    obtain ⟨fraction, behind⟩ := tail_eq_of_no_point plain
    rw [fraction, Option.getD_none] at nonempty
    simp only [behind, if_neg nonempty, readExponent?_tail, ofDigits_eq, Option.map_some, withPower, digits,
      fraction, Option.getD_none]
    rfl

/-- A decimal begins with a digit or a point behind its sign. -/
theorem exists_first (written : Written) : ∃ first later, written.whole ++ written.tail = first :: later ∧
    (first.isDigit = true ∨ first = '.') := by
  have whole := written.isDigit_of_mem_whole
  have nonempty := (isDigits_iff.mp written.numeric).1
  rw [tail]
  cases digits : written.whole with
  | cons first later => exact ⟨first, _, rfl, .inl (whole first (digits ▸ List.mem_cons_self))⟩
  | nil =>
    cases fraction : written.fraction with
    | some places => exact ⟨'.', _, rfl, .inr rfl⟩
    | none =>
      rw [digits, fraction] at nonempty
      exact absurd rfl nonempty

theorem takeSign_text (written : Written) :
    takeSign written.text.toList = (written.sign.isMinus, written.whole ++ written.tail) := by
  obtain ⟨first, later, begins, digit | rfl⟩ := written.exists_first
  · rw [text, String.toList_ofList, takeSign_chars _ begins (ne_sign_of_isDigit digit)]
  · rw [text, String.toList_ofList, takeSign_chars _ begins (by decide)]

/-- No decimal is the name of a number. -/
theorem fold_body_ne (written : Written) (name : String) {initial : Char} {rest : List Char}
    (spelling : name.toList = initial :: rest) (letter : initial = 'I' ∨ initial = 'N') :
    (Text.fold (String.ofList (written.whole ++ written.tail)) == name) = false := by
  obtain ⟨first, later, begins, kind⟩ := written.exists_first
  rw [beq_eq_false_iff_ne]
  rintro rfl
  rw [Text.fold, String.toList_map, String.toList_ofList, begins, List.map_cons] at spelling
  have upper : first.toUpper = initial := (List.cons.inj spelling).1
  have same : first.toUpper = first := by
    rcases kind with digit | rfl
    · exact toUpper_of_isDigit digit
    · decide
  rw [same] at upper
  subst upper
  rcases kind with digit | rfl
  · rcases letter with rfl | rfl <;> exact absurd digit (by decide)
  · rcases letter with never | never <;> exact absurd never (by decide)

/-- A decimal is read as the number that its digits come to. -/
theorem readNumeral?_text (written : Written) :
    readNumeral? written.text = some (.finite (written.withPower written.powerRead)) := by
  rw [readNumeral?, takeSign_text]
  simp only [written.fold_body_ne "INF" rfl (.inl rfl),
    written.fold_body_ne "INFINITY" rfl (.inl rfl),
    written.fold_body_ne "NAN" rfl (.inr rfl), readDecimal?_body]
  rfl

/-- Only digits behind a sign are read as an integer. -/
theorem valueRead_of_readInt? {number : Int} (read : readInt? written.text = some number) :
    written.valueRead = number := by
  rw [readInt?, takeSign_text] at read
  simp only [Option.ite_none_right_eq_some, Option.some.injEq] at read
  obtain ⟨numeric, rfl⟩ := read
  have short : written.tail = [] := by
    have all := (isDigits_iff.mp numeric).2
    have ends := written.not_isDigit_of_head_tail
    cases behind : written.tail with
    | nil => rfl
    | cons c later =>
      rw [behind] at all ends
      exact absurd (all c (by simp)) (by simp [ends c (by simp)])
  have bare : written.fraction = none ∧ written.power = none := by
    rw [tail, List.append_eq_nil_iff] at short
    constructor
    · cases fraction : written.fraction with
      | none => rfl
      | some places => simp [fraction] at short
    · cases power : written.power with
      | none => rfl
      | some power => simp [power, Power.chars] at short
  simp only [valueRead, powerRead, withPower, digits, bare, short, Decimal.toRat, List.append_nil,
    Option.getD_none, Option.elim_none, ofDigits_eq]
  cases written.sign.isMinus <;> simp [Sign.apply, Sign.isMinus]

end Written

end RowStore.Number
