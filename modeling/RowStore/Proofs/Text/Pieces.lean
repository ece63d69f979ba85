import Mathlib
import RowStore.Text.Blank

/-!
Texts cut into pieces, lines and words. A break closes the piece before it, so a text is cut on each
side of a break for itself.
-/

namespace RowStore.Text

theorem length_trim_le (chars : List Char) : (trim chars).length ≤ chars.length := by
  rw [trim, List.length_reverse]
  apply Nat.le_trans (List.dropWhile_sublist _).length_le
  rw [List.length_reverse]
  exact (List.dropWhile_sublist _).length_le

theorem mem_take_dropWhile (blank : Char → Bool) {c : Char} (kept : blank c = false)
    (chars : List Char) (count : Nat) (member : c ∈ chars.take count) :
    c ∈ (chars.dropWhile blank).take count := by
  induction chars generalizing count with
  | nil => exact member
  | cons first rest ih =>
    rw [List.dropWhile_cons]
    split
    · rename_i dropped
      cases count with
      | zero => simp at member
      | succ count =>
        rw [List.take_succ_cons, List.mem_cons] at member
        rcases member with rfl | member
        · rw [kept] at dropped
          cases dropped
        · exact List.take_subset_take_left _ (Nat.le_succ count) (ih count member)
    · exact member

/-- A character that is not blank is no further behind once the blanks around a text are gone. -/
theorem mem_take_trim {c : Char} (kept : isBlank c = false) (chars : List Char) (count : Nat)
    (member : c ∈ chars.take count) : c ∈ (trim chars).take count := by
  have behind := mem_take_dropWhile isBlank kept chars count member
  rw [trim]
  generalize chars.dropWhile isBlank = rest at behind ⊢
  have split := congrArg List.reverse (List.takeWhile_append_dropWhile (p := isBlank) (l := rest.reverse))
  rw [List.reverse_append, List.reverse_reverse] at split
  rw [← split, List.take_append, List.mem_append] at behind
  rcases behind with behind | behind
  · exact behind
  · have dropped := List.mem_takeWhile_imp (List.mem_reverse.mp (List.mem_of_mem_take behind))
    rw [kept] at dropped
    cases dropped

theorem pieces_ne_nil (breaks : Char → Bool) (chars : List Char) : pieces breaks chars ≠ [] := by
  induction chars with
  | nil => exact List.cons_ne_nil _ _
  | cons first rest ih =>
    rw [pieces]
    split
    · exact List.cons_ne_nil _ _
    · cases parts : pieces breaks rest with
      | nil => exact absurd parts ih
      | cons piece later => exact List.cons_ne_nil _ _

/-- Where a character stands among the pieces of a text that do not break at it. -/
theorem exists_piece (breaks : Char → Bool) {c : Char} (kept : breaks c = false) (chars : List Char)
    (count : Nat) (member : c ∈ chars.take count) :
    ∃ before piece rest, pieces breaks chars = before ++ piece :: rest ∧
      (∀ short ∈ before, short.length < count) ∧ c ∈ piece.take count := by
  induction chars generalizing count with
  | nil => simp at member
  | cons first rest ih =>
    cases count with
    | zero => simp at member
    | succ count =>
      rw [List.take_succ_cons, List.mem_cons] at member
      rw [pieces]
      split
      · rename_i broken
        rcases member with rfl | member
        · rw [kept] at broken
          cases broken
        · obtain ⟨before, piece, later, split, short, found⟩ := ih count member
          refine ⟨[] :: before, piece, later, by rw [split]; rfl, ?_,
            List.take_subset_take_left _ (Nat.le_succ count) found⟩
          intro other among
          rcases List.mem_cons.mp among with rfl | among
          · exact Nat.succ_pos count
          · exact Nat.lt_succ_of_lt (short other among)
      · rcases member with rfl | member
        · cases parts : pieces breaks rest with
          | nil => exact absurd parts (pieces_ne_nil breaks rest)
          | cons piece later =>
            exact ⟨[], c :: piece, later, rfl, by simp, by simp⟩
        · obtain ⟨before, piece, later, split, short, found⟩ := ih count member
          rw [split]
          cases before with
          | nil =>
            refine ⟨[], first :: piece, later, rfl, by simp, ?_⟩
            rw [List.take_succ_cons]
            exact List.mem_cons_of_mem _ found
          | cons one before =>
            refine ⟨(first :: one) :: before, piece, later, rfl, ?_,
              List.take_subset_take_left _ (Nat.le_succ count) found⟩
            intro other among
            rcases List.mem_cons.mp among with rfl | among
            · exact Nat.succ_lt_succ (short one List.mem_cons_self)
            · exact Nat.lt_succ_of_lt (short other (List.mem_cons_of_mem _ among))

/-- Where a character stands among the lines of a text. -/
theorem exists_line {c : Char} (kept : c ≠ '\n') (chars : List Char) (count : Nat)
    (member : c ∈ chars.take count) :
    ∃ before line rest, lines chars = before ++ line :: rest ∧
      (∀ short ∈ before, short.length < count) ∧ c ∈ line.take count := by
  obtain ⟨before, line, rest, split, short, found⟩ :=
    exists_piece (· == '\n') (by simpa using kept) chars count member
  have nonempty : line ≠ [] := by
    rintro rfl
    simp at found
  rw [lines, split]
  by_cases last : (before ++ line :: rest).getLast? = some []
  · rcases List.eq_nil_or_concat' rest with rfl | ⟨rest, final, rfl⟩
    · simp [nonempty] at last
    · refine ⟨before, line, rest, ?_, short, found⟩
      rw [if_pos (beq_iff_eq.mpr last), ← List.cons_append, ← List.append_assoc,
        List.dropLast_concat]
  · refine ⟨before, line, rest, ?_, short, found⟩
    rw [if_neg (by simpa using last)]

/-- A text is cut on each side of a break for itself. -/
theorem pieces_append_break (breaks : Char → Bool) {c : Char} (broken : breaks c = true)
    (before rest : List Char) :
    pieces breaks (before ++ c :: rest) = pieces breaks before ++ pieces breaks rest := by
  induction before with
  | nil =>
    simp only [List.nil_append, pieces, broken, if_true]
    rfl
  | cons first before ih =>
    rw [List.cons_append, pieces, pieces, ih]
    split
    · rfl
    · cases parts : pieces breaks before with
      | nil => exact absurd parts (pieces_ne_nil breaks before)
      | cons piece later => rfl

theorem pieces_of_unbroken (breaks : Char → Bool) (chars : List Char)
    (unbroken : ∀ c ∈ chars, breaks c = false) : pieces breaks chars = [chars] := by
  induction chars with
  | nil => rfl
  | cons first rest ih =>
    rw [pieces, unbroken first List.mem_cons_self, ih fun c member =>
      unbroken c (List.mem_cons_of_mem _ member)]
    rfl

/-- Lines that are each ended by a line feed are the lines of their text. -/
theorem lines_flatMap (all : List (List Char)) (unbroken : ∀ line ∈ all, '\n' ∉ line) :
    lines (all.flatMap fun line => line ++ ['\n']) = all := by
  have cut : pieces (· == '\n') (all.flatMap fun line => line ++ ['\n']) = all ++ [[]] := by
    induction all with
    | nil => rfl
    | cons line rest ih =>
      rw [List.flatMap_cons, List.append_assoc, List.singleton_append,
        pieces_append_break _ (by decide), ih fun line member =>
          unbroken line (List.mem_cons_of_mem _ member),
        pieces_of_unbroken]
      · rfl
      · intro c member
        rw [beq_eq_false_iff_ne]
        rintro rfl
        exact unbroken line List.mem_cons_self member
  rw [lines, cut, if_pos (by simp), List.dropLast_concat]

/-- A text without blanks, and with at least one character. -/
def IsWord (chars : List Char) : Prop := chars ≠ [] ∧ ∀ c ∈ chars, isBlank c = false

theorem words_of_isWord {chars : List Char} (word : IsWord chars) : words chars = [chars] := by
  rw [words, pieces_of_unbroken isBlank chars word.2]
  simp [word.1]

theorem words_append_blank {c : Char} (blank : isBlank c = true) (before rest : List Char) :
    words (before ++ c :: rest) = words before ++ words rest := by
  rw [words, pieces_append_break isBlank blank, List.filter_append]
  rfl

/-- Nothing is trimmed from a text that has no blanks at its ends. -/
theorem trim_eq_self {chars : List Char}
    (first : ∀ c, chars.head? = some c → isBlank c = false)
    (last : ∀ c, chars.getLast? = some c → isBlank c = false) : trim chars = chars := by
  have dropWhile_eq (chars : List Char) (first : ∀ c, chars.head? = some c → isBlank c = false) :
      chars.dropWhile isBlank = chars := by
    cases chars with
    | nil => rfl
    | cons c rest => rw [List.dropWhile_cons, first c rfl, if_neg Bool.false_ne_true]
  rw [trim, dropWhile_eq chars first, dropWhile_eq chars.reverse, List.reverse_reverse]
  intro c head
  rw [List.head?_reverse] at head
  exact last c head

end RowStore.Text
