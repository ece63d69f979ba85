import Mathlib
import RowStore.Row.Codec

/-!
The columns that a null bitmap marks are those that were put into it.
-/

namespace RowStore

namespace NullBitmap

theorem length_bytes_empty (columns : Nat) : (empty columns).bytes.length = width columns := by
  simp [empty]

theorem div_lt_width {column columns : Nat} (inside : column < columns) :
    column / 8 < width columns := by
  simp only [width]
  omega

theorem testBit_setBit (byte : UInt8) (bit other : Nat) (inside : bit < 8) :
    (setBit byte bit).toNat.testBit other = (decide (bit = other) || byte.toNat.testBit other) := by
  have bounded : byte.toNat ||| 1 <<< bit < 2 ^ 8 := by
    apply Nat.or_lt_two_pow byte.toNat_lt
    rw [Nat.one_shiftLeft]
    exact Nat.pow_lt_pow_right (by decide) inside
  rw [setBit, UInt8.toNat_ofNat', Nat.mod_eq_of_lt bounded, Nat.testBit_or, Nat.one_shiftLeft,
    Nat.testBit_two_pow, Bool.or_comm]

/-- Two bytes with the same bits are one. -/
theorem eq_of_testBit {first second : UInt8}
    (bits : ∀ bit, bit < 8 → first.toNat.testBit bit = second.toNat.testBit bit) : first = second := by
  apply UInt8.toNat_inj.mp
  apply Nat.eq_of_testBit_eq
  intro bit
  by_cases low : bit < 8
  · exact bits bit low
  · have beyond (byte : UInt8) : byte.toNat < 2 ^ bit :=
      Nat.lt_of_lt_of_le byte.toNat_lt (Nat.pow_le_pow_right (by decide) (Nat.le_of_not_lt low))
    rw [Nat.testBit_lt_two_pow (beyond first), Nat.testBit_lt_two_pow (beyond second)]

theorem testBit_of_contains {first second : NullBitmap} {columns offset bit : Nat}
    (same : ∀ column, column < columns → first.contains column = second.contains column)
    (small : bit < 8) (used : offset * 8 + bit < columns) :
    (first.bytes.getD offset 0).toNat.testBit bit = (second.bytes.getD offset 0).toNat.testBit bit := by
  have marks := same _ used
  have place : (offset * 8 + bit) / 8 = offset := by omega
  have within : (offset * 8 + bit) % 8 = bit := by omega
  rwa [contains, contains, place, within] at marks

theorem contains_insert (bitmap : NullBitmap) (column other : Nat)
    (inside : column / 8 < bitmap.bytes.length) :
    (bitmap.insert column).contains other = (decide (column = other) || bitmap.contains other) := by
  simp only [contains, insert, List.getD_eq_getElem?_getD, List.getElem?_modify]
  by_cases sameByte : column / 8 = other / 8
  · rw [← sameByte, List.getElem?_eq_getElem inside]
    simp only [↓reduceIte, Option.map_eq_map, Option.map_some, Option.getD_some]
    rw [testBit_setBit _ _ _ (Nat.mod_lt _ (by decide))]
    congr 1
    simp only [decide_eq_decide]
    omega
  · have different : column ≠ other := fun same => sameByte (by rw [same])
    simp [sameByte, different]

theorem contains_foldl_insert (marked : List Nat) (bitmap : NullBitmap) (other : Nat)
    (inside : ∀ column ∈ marked, column / 8 < bitmap.bytes.length) :
    (marked.foldl insert bitmap).contains other = (decide (other ∈ marked) || bitmap.contains other) := by
  induction marked generalizing bitmap with
  | nil => simp
  | cons column rest ih =>
    rw [List.foldl_cons, ih, contains_insert]
    · by_cases same : column = other
      · simp [same]
      · simp [same, Ne.symm same]
    · exact inside column List.mem_cons_self
    · intro later member
      rw [length_bytes_insert]
      exact inside later (List.mem_cons_of_mem _ member)

theorem contains_empty (columns other : Nat) : (empty columns).contains other = false := by
  have zero : (List.replicate (width columns) (0 : UInt8)).getD (other / 8) 0 = 0 := by
    rw [List.getD_eq_getElem?_getD, List.getElem?_replicate]
    split <;> rfl
  simp only [contains, empty, zero, UInt8.toNat_zero, Nat.zero_testBit]

/-- A bitmap marks the columns that it was made of. -/
theorem contains_ofColumns (columns : Nat) (marked : List Nat) (other : Nat)
    (inside : ∀ column ∈ marked, column < columns) :
    (ofColumns columns marked).contains other = decide (other ∈ marked) := by
  rw [ofColumns, contains_foldl_insert, contains_empty, Bool.or_false]
  intro column member
  rw [length_bytes_empty]
  exact div_lt_width (inside column member)

theorem length_bytes_foldl_insert (marked : List Nat) (bitmap : NullBitmap) :
    (marked.foldl insert bitmap).bytes.length = bitmap.bytes.length := by
  induction marked generalizing bitmap with
  | nil => rfl
  | cons column rest ih => rw [List.foldl_cons, ih, length_bytes_insert]

theorem columns_foldl_insert (marked : List Nat) (bitmap : NullBitmap) :
    (marked.foldl insert bitmap).columns = bitmap.columns := by
  induction marked generalizing bitmap with
  | nil => rfl
  | cons column rest ih => rw [List.foldl_cons, ih, columns_insert]

@[simp]
theorem length_bytes_ofColumns (columns : Nat) (marked : List Nat) :
    (ofColumns columns marked).bytes.length = width columns := by
  rw [ofColumns, length_bytes_foldl_insert, length_bytes_empty]

@[simp]
theorem columns_ofColumns (columns : Nat) (marked : List Nat) :
    (ofColumns columns marked).columns = columns := by
  rw [ofColumns, columns_foldl_insert]
  rfl

end NullBitmap

namespace Row

theorem mem_nullColumns (row : Row) (column : Nat) :
    column ∈ row.nullColumns ↔ ∃ value, row[column]? = some value ∧ value.isNull = true := by
  simp only [nullColumns, List.mem_map, List.mem_filter, Prod.exists, List.mem_zipIdx_iff_getElem?]
  constructor
  · rintro ⟨value, position, ⟨found, null⟩, rfl⟩
    exact ⟨value, found, null⟩
  · rintro ⟨value, found, null⟩
    exact ⟨value, column, ⟨found, null⟩, rfl⟩

/-- The bitmap of a row marks the values that are `NULL`. -/
theorem contains_nullColumns (row : Row) (columns column : Nat) (value : Value)
    (arity : row.length = columns) (found : row[column]? = some value) :
    (NullBitmap.ofColumns columns row.nullColumns).contains column = value.isNull := by
  rw [NullBitmap.contains_ofColumns]
  · rw [Bool.eq_iff_iff, decide_eq_true_eq, mem_nullColumns, found]
    simp
  · intro marked member
    obtain ⟨_, present, _⟩ := (mem_nullColumns row marked).mp member
    obtain ⟨inside, _⟩ := List.getElem?_eq_some_iff.mp present
    omega

end Row

end RowStore
