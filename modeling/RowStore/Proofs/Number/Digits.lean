import Mathlib
import RowStore.Number.Numeral

/-!
What digits spell. Joining places two by two keeps the number. The digits of an exponent are read one by
one, as far as the exponent stays below a bound.
-/

namespace RowStore.Number

/-- The number that decimal digits spell, the highest place first. -/
def spelled (digits : List Char) : Nat := Nat.ofDigits 10 (digits.reverse.map digitValue)

theorem ofDigits_joinPairs (base : Nat) (places : List Nat) :
    Nat.ofDigits (base * base) (joinPairs base places) = Nat.ofDigits base places := by
  fun_induction joinPairs base places with
  | case1 low high rest ih =>
    simp only [Nat.ofDigits_cons, ih]
    ring
  | case2 places short =>
    match places with
    | [] => rfl
    | [low] => simp [Nat.ofDigits_singleton]
    | low :: high :: rest => exact absurd rfl (short low high rest)

theorem length_joinPairs (base : Nat) (places : List Nat) :
    (joinPairs base places).length = (places.length + 1) / 2 := by
  fun_induction joinPairs base places with
  | case1 low high rest ih =>
    simp only [List.length_cons, ih]
    omega
  | case2 places short =>
    match places with
    | [] => rfl
    | [low] => simp
    | low :: high :: rest => exact absurd rfl (short low high rest)

/-- Places come to their number if there are rounds enough to join them all. -/
theorem ofPlaces_eq (rounds base : Nat) (places : List Nat) (enough : places.length ≤ rounds + 1) :
    ofPlaces rounds base places = Nat.ofDigits base places := by
  fun_induction ofPlaces rounds base places with
  | case1 rounds base low high rest ih =>
    rw [ih, ofDigits_joinPairs]
    rw [length_joinPairs]
    simp only [List.length_cons] at enough ⊢
    omega
  | case2 rounds base places short =>
    match places with
    | [] => rfl
    | [low] => simp [Nat.ofDigits_singleton]
    | low :: high :: rest =>
      cases rounds with
      | zero => simp at enough
      | succ rounds => exact absurd rfl (short rounds low high rest rfl)

theorem ofDigits_eq (digits : List Char) : ofDigits digits = spelled digits :=
  ofPlaces_eq _ _ _ (by simp)

theorem spelled_concat (digits : List Char) (c : Char) :
    spelled (digits ++ [c]) = spelled digits * 10 + digitValue c := by
  simp only [spelled, List.reverse_append, List.reverse_singleton, List.singleton_append, List.map_cons,
    Nat.ofDigits_cons]
  ring

theorem spelled_cons (c : Char) (digits : List Char) :
    spelled (c :: digits) = digitValue c * 10 ^ digits.length + spelled digits := by
  simp only [spelled, List.reverse_cons, List.map_append, List.map_singleton, Nat.ofDigits_append,
    Nat.ofDigits_singleton, List.length_map, List.length_reverse]
  ring

theorem exponentSize_concat (digits : List Char) (c : Char) :
    exponentSize (digits ++ [c]) =
      if exponentSize digits < 65536 then exponentSize digits * 10 + digitValue c
      else exponentSize digits := by
  rw [exponentSize, List.foldl_append]
  rfl

theorem digitValue_lt {c : Char} (digit : c.isDigit = true) : digitValue c < 10 := by
  obtain ⟨_, high⟩ := Bool.and_eq_true_iff.mp digit
  have high : c.toNat ≤ '9'.toNat := of_decide_eq_true high
  rw [digitValue]
  have : '9'.toNat = 57 := by decide
  have : '0'.toNat = 48 := by decide
  omega

/-- The size that no exponent reaches in reading. -/
def exponentBound : Nat := 655360

theorem exponentSize_lt {digits : List Char} (all : ∀ c ∈ digits, c.isDigit = true) :
    exponentSize digits < exponentBound := by
  induction digits using List.reverseRecOn with
  | nil => decide
  | append_singleton digits c ih =>
    rw [exponentSize_concat]
    have last := digitValue_lt (all c (by simp))
    have before := ih fun c member => all c (List.mem_append_left _ member)
    unfold exponentBound at *
    split <;> omega

/-- Below the bound all digits of an exponent count. -/
theorem exponentSize_eq {digits : List Char} (small : spelled digits < exponentBound) :
    exponentSize digits = spelled digits := by
  induction digits using List.reverseRecOn with
  | nil => rfl
  | append_singleton digits c ih =>
    rw [spelled_concat] at small ⊢
    have below : spelled digits < 65536 := by
      unfold exponentBound at small
      omega
    rw [exponentSize_concat, ih (below.trans (by decide)), if_pos below]

end RowStore.Number
