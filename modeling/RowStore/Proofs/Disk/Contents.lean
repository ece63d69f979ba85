import RowStore.Proofs.Disk.Opening

/-!
The contents of files. A write changes the one block it is about, and a file of whole blocks is its
blocks one after another.
-/

namespace RowStore

namespace Contents

theorem block_writeBlock (contents : Contents) (number : Nat) (block : Block) (other : Nat) :
    (contents.writeBlock number block).block other =
      if other = number then block else contents.block other := by
  rw [Contents.block, writeBlock, Std.TreeMap.getD_insert]
  simp only [Std.compare_eq_iff_eq, eq_comm (a := number)]
  rfl

@[simp]
theorem block_empty (number : Nat) : empty.block number = .zero := by
  simp [Contents.block, empty]

theorem toBytes_of_size (contents : Contents) (count : Nat)
    (whole : contents.size = count * blockSize) :
    contents.toBytes = (List.range count).flatMap fun number => (contents.block number).toList := by
  have blocks : (contents.size + blockSize - 1) / blockSize = count := by
    rw [whole]
    simp only [blockSize]
    omega
  rw [toBytes, blocks]
  apply List.take_of_length_le
  rw [List.length_flatMap, whole]
  simp

end Contents

namespace Disk

variable {disk after : Disk} {path : String} {number : Nat}

/-- A disk that has the contents of every file among its entries. -/
def Intact (disk : Disk) : Prop :=
  ∀ location number, disk.node? location = some (.file number) → number < disk.files.size

theorem intact_empty : empty.Intact := by
  intro location number found
  by_cases root : location = []
  · simp [root] at found
  · rw [node?_of_ne_nil _ root] at found
    simp [empty] at found

theorem Furnished.intact (furnished : Furnished disk after) (intact : disk.Intact) :
    after.Intact := by
  intro location number found
  rw [furnished.files_eq]
  rcases furnished.gained location _ found with earlier | new
  · exact intact location number earlier
  · cases new

theorem Furnished.contents_eq (furnished : Furnished disk after) (file : Nat) :
    after.contents file = disk.contents file := by
  rw [contents, contents, furnished.files_eq]

theorem contents_modifyContents (disk : Disk) (file : Nat) (change : Contents → Contents)
    (known : file < disk.files.size) (other : Nat) :
    (disk.modifyContents file change).contents other =
      if other = file then change (disk.contents file) else disk.contents other := by
  simp only [contents, modifyContents, Array.getD_eq_getD_getElem?, Array.getElem?_modify]
  split
  · rename_i same
    rw [if_pos same.symm, ← same, Array.getElem?_eq_getElem known]
    rfl
  · rename_i different
    rw [if_neg (Ne.symm different)]

theorem contents_addFile (disk : Disk) (location : Location) (contents : Contents) (other : Nat) :
    (disk.addFile location contents).2.contents other =
      if other = disk.files.size then contents else disk.contents other := by
  simp only [Disk.contents, addFile, Array.getD_eq_getD_getElem?, Array.getElem?_push]
  split <;> rfl

@[simp]
theorem size_files_modifyContents (disk : Disk) (file : Nat) (change : Contents → Contents) :
    (disk.modifyContents file change).files.size = disk.files.size := by
  simp [modifyContents]

theorem Intact.modifyContents (intact : disk.Intact) (file : Nat) (change : Contents → Contents) :
    (disk.modifyContents file change).Intact := by
  intro location number found
  rw [size_files_modifyContents]
  exact intact location number found

theorem Intact.addFile (intact : disk.Intact) {location : Location} (inside : location ≠ [])
    (contents : Contents) : (disk.addFile location contents).2.Intact := by
  intro other number found
  rw [node?_addFile disk inside] at found
  simp only [Disk.addFile, Array.size_push]
  split at found
  · cases found
    exact Nat.lt_succ_self _
  · exact Nat.lt_succ_of_lt (intact other number found)

theorem Opens.intact {truncate : Bool} {result : Except DiskFault Nat} (intact : disk.Intact)
    (opens : Opens path truncate disk result after) : after.Intact := by
  cases opens with
  | failed fault after furnished => exact furnished.intact intact
  | present middle number furnished holds =>
    cases truncate with
    | true => exact (furnished.intact intact).modifyContents _ _
    | false => exact furnished.intact intact
  | created middle furnished leads free =>
    exact (furnished.intact intact).addFile leads.locate_ne_nil _

/-- A file that is put where a path leads is held there. -/
theorem Leads.holds_addFile (leads : Leads disk path)
    (no_directory : disk.node? (locate path) ≠ some .directory) (contents : Contents) :
    Holds (disk.addFile (locate path) contents).2 path disk.files.size := by
  have inside := leads.locate_ne_nil
  refine ⟨leads.of_kept fun location found => ?kept, ?entry⟩
  case kept =>
    rw [node?_addFile disk inside, if_neg, found]
    rintro rfl
    exact no_directory found
  case entry => rw [node?_addFile disk inside, if_pos rfl]

/-- A file that was opened is held at its path, and is empty if it was truncated. -/
theorem Opens.holds {truncate : Bool} (intact : disk.Intact)
    (opens : Opens path truncate disk (.ok number) after) :
    Holds after path number ∧ number < after.files.size ∧
      (truncate = true → after.contents number = .empty) := by
  cases opens with
  | present middle number furnished holds =>
    have known := furnished.intact intact _ _ holds.entry
    cases truncate with
    | true =>
      refine ⟨⟨holds.toLeads.of_kept fun _ found => found, holds.entry⟩, by simpa using known, ?_⟩
      intro _
      simp only [if_true]
      rw [contents_modifyContents _ _ _ known, if_pos rfl]
    | false => exact ⟨holds, known, fun never => by cases never⟩
  | created middle furnished leads free =>
    refine ⟨leads.holds_addFile (by simp [free]) .empty, by simp [Disk.addFile], fun _ => ?_⟩
    rw [contents_addFile, if_pos rfl]

end Disk

end RowStore
