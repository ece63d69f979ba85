import RowStore.Number.Word
import RowStore.Proofs.Number.Digits

/-!
A number of 32 bits is read from the decimals that write it, and from no other text.
-/

namespace RowStore.Number

theorem digitValue_digitChar {digit : Nat} (small : digit < 10) :
    digitValue digit.digitChar = digit := by
  rw [digitValue, Nat.toNat_digitChar_of_lt_ten small]
  exact Nat.add_sub_cancel_left 48 digit

/-- A word as it is written: decimal digits, perhaps behind a plus sign. Zeros may stand before them. -/
def WritesWord (chars : List Char) (word : UInt32) : Prop :=
  ∃ digits, (chars = digits ∨ chars = '+' :: digits) ∧ isDigits digits = true ∧
    spelled digits = word.toNat

/-- Digits are read exactly if what they spell is a number of 32 bits. -/
theorem readWordFrom_eq_ok_iff {value : Nat} (small : value < UInt32.size) (digits : List Char)
    (word : UInt32) :
    readWordFrom value digits = .ok word ↔
      digits.all Char.isDigit = true ∧ value * 10 ^ digits.length + spelled digits = word.toNat := by
  induction digits generalizing value with
  | nil =>
    have same : UInt32.ofNat value = word ↔ value = word.toNat := by
      rw [← UInt32.toNat_inj, UInt32.toNat_ofNat_of_lt' small]
    simpa [readWordFrom, spelled] using same
  | cons c rest ih =>
    rw [readWordFrom, List.all_cons, List.length_cons, spelled_cons]
    by_cases digit : c.isDigit = true
    · have sum : value * 10 ^ (rest.length + 1) + (digitValue c * 10 ^ rest.length + spelled rest) =
          (value * 10 + digitValue c) * 10 ^ rest.length + spelled rest := by ring
      by_cases large : UInt32.size ≤ value * 10 + digitValue c
      · -- a number that has grown too large only grows with the digits that follow
        have grows : value * 10 + digitValue c ≤ (value * 10 + digitValue c) * 10 ^ rest.length :=
          Nat.le_mul_of_pos_right _ (by positivity)
        have bounded : word.toNat < UInt32.size := word.toNat_lt
        simp only [digit, large, sum, Bool.not_true, Bool.false_eq_true, if_false, if_true,
          reduceCtorEq, false_iff, not_and]
        omega
      · have small : value * 10 + digitValue c < UInt32.size := Nat.lt_of_not_le large
        simp only [digit, large, sum, Bool.not_true, Bool.false_eq_true, if_false, Bool.true_and]
        exact ih small
    · simp [digit]

/-- A word is read exactly from what writes it. -/
theorem readWord_eq_ok_iff (chars : List Char) (word : UInt32) :
    readWord chars = .ok word ↔ WritesWord chars word := by
  have digits_iff (digits : List Char) : readWordFrom 0 digits = .ok word ↔
      digits.all Char.isDigit = true ∧ spelled digits = word.toNat := by
    have start := readWordFrom_eq_ok_iff (by decide : 0 < UInt32.size) digits word
    rwa [Nat.zero_mul, Nat.zero_add] at start
  constructor
  · intro read
    unfold readWord at read
    split at read
    · cases read
    · cases read
    · rename_i digits nonempty
      obtain ⟨all, spells⟩ := (digits_iff digits).mp read
      exact ⟨digits, .inr rfl, by simpa [isDigits, all] using nonempty, spells⟩
    · rename_i nonempty _ _
      obtain ⟨all, spells⟩ := (digits_iff chars).mp read
      exact ⟨chars, .inl rfl, by simpa [isDigits, all] using nonempty, spells⟩
  · rintro ⟨digits, written, numeric, spells⟩
    obtain ⟨nonempty, all⟩ := Bool.and_eq_true_iff.mp numeric
    have read := (digits_iff digits).mpr ⟨all, spells⟩
    cases digits with
    | nil => simp at nonempty
    | cons first rest =>
      have unsigned : first ≠ '+' := by
        rintro rfl
        exact absurd (List.all_eq_true.mp all '+' List.mem_cons_self) (by decide)
      rcases written with rfl | rfl
      · unfold readWord
        split
        case h_4 => exact read
        all_goals simp_all
      · exact read

theorem spelled_toDigits (value : Nat) : spelled (Nat.toDigits 10 value) = value := by
  induction value using Nat.strong_induction_on with
  | h value ih =>
    rw [Nat.toDigits_eq_if (by decide)]
    split
    · rename_i small
      simp [spelled, digitValue_digitChar small]
    · rename_i large
      have below : value / 10 < value := Nat.div_lt_self (by omega) (by decide)
      rw [spelled_concat, ih _ below, digitValue_digitChar (Nat.mod_lt _ (by decide)),
        Nat.div_add_mod']

/-- A number of 32 bits is read back from its decimal digits. -/
theorem readWord_toDigits (value : UInt32) :
    readWord (Nat.toDigits 10 value.toNat) = .ok value := by
  apply (readWord_eq_ok_iff _ _).mpr
  refine ⟨_, .inl rfl, ?_, spelled_toDigits _⟩
  have digits : ∀ c ∈ Nat.toDigits 10 value.toNat, c.isDigit = true := fun c member =>
    Nat.isDigit_of_mem_toDigits (by decide) (by decide) member
  simpa [isDigits, Nat.toDigits_ne_nil] using digits

end RowStore.Number
