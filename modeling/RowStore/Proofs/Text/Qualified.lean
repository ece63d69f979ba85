import Mathlib
import RowStore.Text.Name

/-!
Qualified names. A name without a dot can be told from its qualifier, and two qualified names are the
same exactly if their parts are. Case plays no part: no letter is turned into a dot, and no dot into
a letter.
-/

namespace RowStore.Text

variable {outer table column label name : String}

/-- A character that is not in upper case is not the upper case of another one. -/
theorem toUpper_ne {c mark : Char} (other : c ≠ mark) (sign : ¬ ('A' ≤ mark ∧ mark ≤ 'Z')) :
    c.toUpper ≠ mark := by
  rw [Char.toUpper]
  split
  · rename_i lower
    rintro rfl
    refine sign ?_
    have low : 97 ≤ c.val.toNat := lower.1
    have high : c.val.toNat ≤ 122 := lower.2
    have shift : ('A'.val - 'a'.val).toNat = 4294967264 := by decide
    constructor
    · change 65 ≤ (c.val + ('A'.val - 'a'.val)).toNat
      rw [UInt32.toNat_add, shift]
      omega
    · change (c.val + ('A'.val - 'a'.val)).toNat ≤ 90
      rw [UInt32.toNat_add, shift]
      omega
  · exact other

theorem not_mem_fold {mark : Char} (sign : ¬ ('A' ≤ mark ∧ mark ≤ 'Z')) (absent : mark ∉ name.toList) :
    mark ∉ (fold name).toList := by
  rw [fold, String.toList_map, List.mem_map]
  rintro ⟨c, member, same⟩
  exact toUpper_ne (fun equal : c = mark => absent (equal ▸ member)) sign same

/-- A name without a dot. -/
def IsPlain (name : String) : Prop := '.' ∉ name.toList

instance : DecidablePred IsPlain := fun name => inferInstanceAs (Decidable ('.' ∉ name.toList))

theorem IsPlain.fold (plain : IsPlain name) : IsPlain (fold name) := not_mem_fold (by decide) plain

theorem toUpper_dot : '.'.toUpper = '.' := by decide

/-- A name that another one is the same as up to case has as few dots. -/
theorem IsPlain.of_fold {other : String} (plain : IsPlain name) (same : Text.fold other = Text.fold name) :
    IsPlain other := by
  intro member
  refine plain.fold ?_
  rw [← same, Text.fold, String.toList_map]
  exact List.mem_map.mpr ⟨'.', member, toUpper_dot⟩

/-- Names are the same if their letters are, character by character. -/
theorem fold_eq_iff (left right : String) :
    Text.fold left = Text.fold right ↔
      left.toList.map Char.toUpper = right.toList.map Char.toUpper := by
  rw [← String.toList_inj, Text.fold, Text.fold, String.toList_map, String.toList_map]

theorem sameName_iff (left right : String) : sameName left right = true ↔ fold left = fold right :=
  beq_iff_eq

theorem sameName_comm (left right : String) : sameName left right = sameName right left := by
  rw [Bool.eq_iff_iff, sameName_iff, sameName_iff, eq_comm]

theorem fold_qualify (outer name : String) : fold (qualify outer name) = qualify (fold outer) (fold name) := by
  rw [← String.toList_inj]
  simp [fold, qualify]

theorem toList_qualify (outer name : String) :
    (qualify outer name).toList = outer.toList ++ '.' :: name.toList := by
  simp [qualify]

theorem fold_qualify_inj {other : String} :
    fold (qualify outer name) = fold (qualify outer other) ↔ fold name = fold other := by
  rw [fold_qualify, fold_qualify, ← String.toList_inj, toList_qualify, toList_qualify,
    List.append_cancel_left_eq, List.cons.injEq, String.toList_inj]
  exact and_iff_right rfl

theorem qualify_assoc (outer table column : String) :
    qualify outer (qualify table column) = qualify (qualify outer table) column := by
  simp [qualify, String.append_assoc]

theorem not_isPlain_qualify (outer name : String) : ¬ IsPlain (qualify outer name) := by
  simp [IsPlain, toList_qualify]

/-- What stands behind the last dot is told by the name. -/
theorem eq_of_append_dot {before rest other others : List Char}
    (same : before ++ '.' :: rest = other ++ '.' :: others) (plain : '.' ∉ rest) (alike : '.' ∉ others) :
    before = other ∧ rest = others := by
  rcases List.append_eq_append_iff.mp same with ⟨between, rfl, split⟩ | ⟨between, rfl, split⟩
  · cases between with
    | nil => exact ⟨by simp, (List.cons.inj split).2⟩
    | cons c later =>
      obtain ⟨_, rfl⟩ := List.cons.inj split
      simp at plain
  · cases between with
    | nil => exact ⟨by simp, (List.cons.inj split).2.symm⟩
    | cons c later =>
      obtain ⟨_, rfl⟩ := List.cons.inj split
      simp at alike

theorem qualify_inj {other : String} (plain : IsPlain column) (alike : IsPlain name) :
    qualify table column = qualify other name ↔ table = other ∧ column = name := by
  constructor
  · intro same
    have chars := congrArg String.toList same
    rw [toList_qualify, toList_qualify] at chars
    obtain ⟨tables, columns⟩ := eq_of_append_dot chars plain alike
    exact ⟨String.toList_inj.mp tables, String.toList_inj.mp columns⟩
  · rintro ⟨rfl, rfl⟩
    rfl

/-- Names of one qualifier each are the same exactly if their parts are. -/
theorem sameName_qualify (plain : IsPlain column) (alike : IsPlain name) :
    sameName (qualify table column) (qualify label name) = true ↔
      sameName table label = true ∧ sameName column name = true := by
  rw [sameName_iff, sameName_iff, sameName_iff, fold_qualify, fold_qualify,
    qualify_inj plain.fold alike.fold]

theorem not_sameName_of_isPlain (plain : IsPlain name) : sameName (qualify outer column) name = false := by
  rw [Bool.eq_false_iff]
  intro same
  rw [sameName_iff, fold_qualify] at same
  exact not_isPlain_qualify _ _ (same ▸ plain.fold)

theorem endsInName_iff (full name : String) :
    endsInName full name = true ↔ ∃ before, fold full = qualify before (fold name) := by
  rw [endsInName, List.isSuffixOf_iff_suffix]
  constructor
  · rintro ⟨before, same⟩
    refine ⟨String.ofList before, ?_⟩
    rw [← String.toList_inj, toList_qualify, ← same]
    simp
  · rintro ⟨before, same⟩
    exact ⟨before.toList, by rw [same, toList_qualify]⟩

/-- No name without a dot ends in another behind a dot. -/
theorem not_endsInName_of_isPlain (plain : IsPlain column) : endsInName column name = false := by
  rw [Bool.eq_false_iff]
  intro ends
  obtain ⟨before, same⟩ := (endsInName_iff _ _).mp ends
  exact not_isPlain_qualify _ _ (same ▸ plain.fold)

/-- A qualified name ends in a plain one exactly if that is its last part. -/
theorem endsInName_qualify (plain : IsPlain column) (alike : IsPlain name) :
    endsInName (qualify outer column) name = true ↔ sameName column name = true := by
  rw [endsInName_iff, sameName_iff, fold_qualify]
  constructor
  · rintro ⟨before, same⟩
    exact ((qualify_inj plain.fold alike.fold).mp same).2
  · intro same
    exact ⟨fold outer, by rw [same]⟩

/-- A name of a single qualifier does not end in another such name. -/
theorem not_endsInName_qualify (single : IsPlain table) (plain : IsPlain column) (alike : IsPlain name) :
    endsInName (qualify table column) (qualify label name) = false := by
  rw [Bool.eq_false_iff]
  intro ends
  obtain ⟨before, same⟩ := (endsInName_iff _ _).mp ends
  rw [fold_qualify, fold_qualify, qualify_assoc, qualify_inj plain.fold alike.fold] at same
  exact not_isPlain_qualify _ _ (same.1 ▸ single.fold)

/-- A name of several qualifiers ends in one of a single qualifier exactly if its last parts do. -/
theorem endsInName_qualify_qualify (single : IsPlain table) (plain : IsPlain column)
    (another : IsPlain label) (alike : IsPlain name) :
    endsInName (qualify outer (qualify table column)) (qualify label name) = true ↔
      sameName table label = true ∧ sameName column name = true := by
  rw [endsInName_iff, sameName_iff, sameName_iff, fold_qualify, fold_qualify, fold_qualify]
  constructor
  · rintro ⟨before, same⟩
    rw [qualify_assoc, qualify_assoc, qualify_inj plain.fold alike.fold,
      qualify_inj single.fold another.fold] at same
    exact ⟨same.1.2, same.2⟩
  · rintro ⟨tables, columns⟩
    exact ⟨fold outer, by rw [tables, columns]⟩

/-- Names of a different number of qualifiers are not the same. -/
theorem not_sameName_qualify (another : IsPlain label) (plain : IsPlain column) (alike : IsPlain name) :
    sameName (qualify outer (qualify table column)) (qualify label name) = false := by
  rw [Bool.eq_false_iff]
  intro same
  rw [qualify_assoc, sameName_qualify plain alike, sameName_iff, fold_qualify] at same
  exact not_isPlain_qualify _ _ (same.1 ▸ another.fold)

theorem span_of_not_mem {before : List Char} (plain : '.' ∉ before) (rest : List Char) :
    (before ++ '.' :: rest).span (· != '.') = (before, '.' :: rest) := by
  have passes : ∀ c ∈ before, (c != '.') = true := by
    rintro c member
    exact bne_iff_ne.mpr fun dot => plain (dot ▸ member)
  rw [List.span_eq_takeWhile_dropWhile, List.takeWhile_append_of_pos passes,
    List.dropWhile_append_of_pos passes]
  simp

theorem splitAtDot_qualify (single : IsPlain table) (column : String) :
    splitAtDot (qualify table column) = some (table, column) := by
  rw [splitAtDot, toList_qualify, span_of_not_mem single]
  simp

theorem splitAtDot_of_isPlain (plain : IsPlain name) : splitAtDot name = none := by
  have passes : ∀ c ∈ name.toList, (c != '.') = true := by
    rintro c member
    exact bne_iff_ne.mpr fun dot => plain (dot ▸ member)
  rw [splitAtDot, List.span_eq_takeWhile_dropWhile, List.dropWhile_eq_nil_iff.mpr passes]

end RowStore.Text
