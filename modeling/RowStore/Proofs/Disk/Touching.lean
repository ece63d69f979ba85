import RowStore.Proofs.Disk.Making

/-!
What is touched on a disk. Each operation on a file by its path touches the place of the path at most: files
elsewhere keep their entries and their contents, as long as no two entries share a file.
-/

namespace RowStore.Disk

variable {disk middle after : Disk} {location other : Location} {number file : Nat} {path : String}
  {places wider : Set Location} {truncate : Bool} {bytes : List UInt8}

/-- A disk on which files were written, put or removed at some places only, whatever directories were
made. -/
structure Touches (places : Set Location) (disk after : Disk) : Prop where
  directories : ∀ location, disk.node? location = some .directory →
    after.node? location = some .directory
  kept : ∀ location number, location ∉ places → disk.node? location = some (.file number) →
    after.node? location = some (.file number)
  contents_eq : ∀ location number, location ∉ places → disk.node? location = some (.file number) →
    number < disk.files.size → after.contents number = disk.contents number
  size_le : disk.files.size ≤ after.files.size
  origin : ∀ location number, after.node? location = some (.file number) →
    disk.node? location = some (.file number) ∨ location ∈ places ∧ disk.files.size ≤ number

namespace Touches

theorem refl (places : Set Location) (disk : Disk) : Touches places disk disk :=
  ⟨fun _ found => found, fun _ _ _ found => found, fun _ _ _ _ _ => rfl, Nat.le_refl _,
    fun _ _ found => .inl found⟩

theorem trans (first : Touches places disk middle) (second : Touches places middle after) :
    Touches places disk after := by
  constructor
  case directories => exact fun location found => second.directories _ (first.directories _ found)
  case kept =>
    exact fun location number elsewhere found =>
      second.kept _ _ elsewhere (first.kept _ _ elsewhere found)
  case contents_eq =>
    intro location number elsewhere found known
    rw [second.contents_eq location number elsewhere (first.kept _ _ elsewhere found)
      (Nat.lt_of_lt_of_le known first.size_le), first.contents_eq location number elsewhere found known]
  case size_le => exact Nat.le_trans first.size_le second.size_le
  case origin =>
    intro location number found
    rcases second.origin location number found with earlier | ⟨member, new⟩
    · exact first.origin location number earlier
    · exact .inr ⟨member, Nat.le_trans first.size_le new⟩

theorem mono (touches : Touches places disk after) (within : places ⊆ wider) :
    Touches wider disk after := by
  constructor
  case directories => exact touches.directories
  case kept => exact fun _ _ elsewhere => touches.kept _ _ fun member => elsewhere (within member)
  case contents_eq =>
    exact fun _ _ elsewhere => touches.contents_eq _ _ fun member => elsewhere (within member)
  case size_le => exact touches.size_le
  case origin =>
    exact fun location number found => (touches.origin location number found).imp id
      fun ⟨member, new⟩ => ⟨within member, new⟩

/-- A file elsewhere is spared. -/
theorem spares (touches : Touches places disk after) (elsewhere : location ∉ places)
    (found : disk.node? location = some (.file number)) : Spares location number disk after := by
  constructor
  case directories => exact touches.directories
  case entry => exact touches.kept _ _ elsewhere
  case known => exact fun known => Nat.lt_of_lt_of_le known touches.size_le
  case contents_eq => exact touches.contents_eq _ _ elsewhere found

theorem fileAt_eq (touches : Touches places disk after) (elsewhere : locate path ∉ places)
    (found : disk.fileAt path = .ok number) : after.fileAt path = .ok number := by
  obtain ⟨node, reached, done⟩ := Outcome.bind_eq_ok_iff.mp found
  obtain ⟨⟨location, entry⟩, led, same⟩ := Outcome.bind_eq_ok_iff.mp reached
  cases same
  cases entry with
  | directory => cases done
  | file other =>
    cases done
    have kept := find_of_kept touches.directories
      (touches.kept _ _ elsewhere (find_eq_ok led).2) led
    exact Outcome.bind_eq_ok_iff.mpr ⟨_, Outcome.bind_eq_ok_iff.mpr ⟨_, kept, rfl⟩, rfl⟩

end Touches

theorem Furnished.touches (furnished : Furnished disk after) : Touches places disk after := by
  constructor
  case directories => exact fun _ found => furnished.kept _ _ found
  case kept => exact fun _ _ _ found => furnished.kept _ _ found
  case contents_eq => exact fun _ number _ _ _ => furnished.contents_eq number
  case size_le => rw [furnished.files_eq]
  case origin =>
    intro location number found
    rcases furnished.gained location _ found with earlier | new
    · exact .inl earlier
    · cases new

/-- Which writes a disk refuses is no matter of its files. -/
theorem touches_refuses (disk : Disk) (refuses : Nat → Bool) :
    Touches places disk { disk with refuses } := by
  have same := Touches.refl places disk
  exact ⟨same.directories, same.kept, fun _ _ _ _ _ => rfl, same.size_le, same.origin⟩

theorem touches_addFile (inside : location ≠ []) (no_directory : disk.node? location ≠ some .directory)
    (contents : Contents) : Touches {location} disk (disk.addFile location contents).2 := by
  constructor
  case directories =>
    intro place found
    rw [node?_addFile disk inside, if_neg, found]
    rintro rfl
    exact no_directory found
  case kept =>
    intro place number elsewhere found
    rw [node?_addFile disk inside, if_neg (Set.notMem_singleton_iff.mp elsewhere), found]
  case contents_eq =>
    exact fun place number _ _ known => by rw [contents_addFile, if_neg (Nat.ne_of_lt known)]
  case size_le => simp [addFile]
  case origin =>
    intro place number found
    rw [node?_addFile disk inside] at found
    split at found
    · cases found
      exact .inr ⟨by assumption, Nat.le_refl _⟩
    · exact .inl found

theorem Replaces.touches {result : Except DiskFault Unit}
    (replaces : Replaces path bytes disk result after) : Touches {locate path} disk after := by
  cases replaces with
  | failed fault after furnished => exact furnished.touches
  | replaced middle furnished leads beside_usable no_directory =>
    exact furnished.touches.trans (touches_addFile leads.locate_ne_nil no_directory _)

theorem Removes.touches {result : Except DiskFault Unit} (removes : Removes path disk result after) :
    Touches {locate path} disk after := by
  cases removes with
  | failed fault => exact .refl _ _
  | removed number entry =>
    have inside : locate path ≠ [] := fun root => by simp [root] at entry
    have earlier (location : Location) (node : Node)
        (found : (disk.eraseNode (locate path)).node? location = some node) :
        disk.node? location = some node := by
      rw [node?_eraseNode disk inside] at found
      split at found
      · cases found
      · exact found
    constructor
    case directories =>
      intro location found
      rw [node?_eraseNode disk inside, if_neg, found]
      rintro rfl
      cases entry.symm.trans found
    case kept =>
      intro location number elsewhere found
      rw [node?_eraseNode disk inside, if_neg (Set.notMem_singleton_iff.mp elsewhere), found]
    case contents_eq => exact fun _ _ _ _ _ => rfl
    case size_le => exact Nat.le_refl _
    case origin => exact fun location number found => .inl (earlier _ _ found)

/-- A file that stands at one place at most. -/
structure Owned (location : Location) (number : Nat) (disk : Disk) : Prop where
  known : number < disk.files.size
  only : ∀ other, disk.node? other = some (.file number) → other = location

theorem Owned.touches (owned : disk.Owned location number) (touches : Touches places disk after) :
    after.Owned location number := by
  refine ⟨Nat.lt_of_lt_of_le owned.known touches.size_le, fun other found => ?_⟩
  rcases touches.origin other number found with earlier | ⟨_, new⟩
  · exact owned.only other earlier
  · exact absurd owned.known (Nat.not_lt.mpr new)

/-- A file is touched at its only place. -/
theorem OnlyFile.touches (onlyFile : OnlyFile number disk after) (owned : disk.Owned location number) :
    Touches {location} disk after := by
  constructor
  case directories => exact fun _ found => by rw [onlyFile.node?_eq, found]
  case kept => exact fun _ _ _ found => by rw [onlyFile.node?_eq, found]
  case contents_eq =>
    intro other file elsewhere found _
    apply onlyFile.contents_eq
    rintro rfl
    exact elsewhere (owned.only other found)
  case size_le => exact Nat.le_of_eq onlyFile.size_eq.symm
  case origin => exact fun _ _ found => .inl (by rw [← onlyFile.node?_eq, found])

/-- A disk whose entries are all about files that it has, and no two about the same. -/
structure Unshared (disk : Disk) : Prop where
  intact : disk.Intact
  apart : ∀ location other number, disk.node? location = some (.file number) →
    disk.node? other = some (.file number) → location = other

theorem unshared_empty : empty.Unshared := by
  refine ⟨intact_empty, fun location other number found _ => ?_⟩
  have known := intact_empty location number found
  simp [empty] at known

namespace Unshared

theorem owned (unshared : disk.Unshared) (found : disk.node? location = some (.file number)) :
    disk.Owned location number :=
  ⟨unshared.intact location number found, fun other same => unshared.apart other location number same found⟩

theorem of_fewer (unshared : disk.Unshared) (size_le : disk.files.size ≤ after.files.size)
    (fewer : ∀ location number, after.node? location = some (.file number) →
      disk.node? location = some (.file number)) : after.Unshared :=
  ⟨fun location number found =>
      Nat.lt_of_lt_of_le (unshared.intact location number (fewer _ _ found)) size_le,
    fun location other number found present =>
      unshared.apart location other number (fewer _ _ found) (fewer _ _ present)⟩

theorem furnished (unshared : disk.Unshared) (furnished : Furnished disk after) : after.Unshared := by
  refine unshared.of_fewer (Nat.le_of_eq (by rw [furnished.files_eq])) fun location number found => ?_
  rcases furnished.gained location _ found with earlier | new
  · exact earlier
  · cases new

theorem addFile (unshared : disk.Unshared) (inside : location ≠ []) (contents : Contents) :
    (disk.addFile location contents).2.Unshared := by
  refine ⟨unshared.intact.addFile inside contents, fun first second number found present => ?_⟩
  have new (other : Location) : disk.node? other ≠ some (.file disk.files.size) :=
    fun known => Nat.lt_irrefl _ (unshared.intact _ _ known)
  rw [node?_addFile disk inside] at found present
  split at found <;> split at present
  · rw [‹first = location›, ‹second = location›]
  · cases found
    exact absurd present (new second)
  · cases present
    exact absurd found (new first)
  · exact unshared.apart first second number found present

theorem onlyFile (unshared : disk.Unshared) (onlyFile : OnlyFile number disk after) : after.Unshared :=
  unshared.of_fewer (Nat.le_of_eq onlyFile.size_eq.symm) fun location number found => by
    rw [← onlyFile.node?_eq, found]

theorem replaces {result : Except DiskFault Unit} (unshared : disk.Unshared)
    (replaces : Replaces path bytes disk result after) : after.Unshared := by
  cases replaces with
  | failed fault after furnished => exact unshared.furnished furnished
  | replaced middle furnished leads => exact (unshared.furnished furnished).addFile leads.locate_ne_nil _

theorem removes {result : Except DiskFault Unit} (unshared : disk.Unshared)
    (removes : Removes path disk result after) : after.Unshared :=
  unshared.of_fewer removes.touches.size_le fun location number found => by
    cases removes with
    | failed fault => exact found
    | removed number entry =>
      have inside : locate path ≠ [] := fun root => by simp [root] at entry
      rw [node?_eraseNode disk inside] at found
      split at found
      · cases found
      · exact found

theorem opens {result : Except DiskFault Nat} (unshared : disk.Unshared)
    (opens : Opens path truncate disk result after) : after.Unshared := by
  cases opens with
  | failed fault after furnished => exact unshared.furnished furnished
  | present middle number furnished holds =>
    have kept := unshared.furnished furnished
    cases truncate with
    | true => exact kept.of_fewer (by simp) fun _ _ found => found
    | false => exact kept
  | created middle furnished leads free =>
    exact (unshared.furnished furnished).addFile leads.locate_ne_nil _

end Unshared

/-- Opening a file touches nothing but the file, and that only to empty it. -/
theorem Opens.touches {result : Except DiskFault Nat} (unshared : disk.Unshared)
    (opens : Opens path truncate disk result after) : Touches {locate path} disk after := by
  cases opens with
  | failed fault after furnished => exact furnished.touches
  | present middle number furnished holds =>
    cases truncate with
    | false => exact furnished.touches
    | true =>
      have owned := (unshared.furnished furnished).owned holds.entry
      exact furnished.touches.trans ((onlyFile_modifyContents number _ middle).touches owned)
  | created middle furnished leads free =>
    exact furnished.touches.trans (touches_addFile leads.locate_ne_nil (by simp [free]) _)

/-- The places of a disk where there is nothing. -/
def free (disk : Disk) : Set Location := {location | disk.node? location = none}

/-- A file that is opened, and not truncated, is put in a free place at most. -/
theorem Opens.touches_free {result : Except DiskFault Nat} (opens : Opens path false disk result after) :
    Touches disk.free disk after := by
  cases opens with
  | failed fault after furnished => exact furnished.touches
  | present middle number furnished holds => exact furnished.touches
  | created middle furnished leads free =>
    refine furnished.touches.trans ((touches_addFile leads.locate_ne_nil (by simp [free]) _).mono ?_)
    rintro _ rfl
    cases found : disk.node? (locate path) with
    | none => exact found
    | some node => cases free.symm.trans (furnished.kept _ _ found)

/-- Where only free places are touched no place becomes free. -/
theorem Touches.free_subset (touches : Touches disk.free disk after) : after.free ⊆ disk.free := by
  intro location vacant
  have vacant : after.node? location = none := vacant
  cases found : disk.node? location with
  | none => exact found
  | some node =>
    cases node with
    | directory => cases vacant.symm.trans (touches.directories _ found)
    | file number =>
      have taken : location ∉ disk.free := fun free => by cases found.symm.trans free
      cases vacant.symm.trans (touches.kept _ _ taken found)

theorem Touches.trans_free (first : Touches disk.free disk middle)
    (second : Touches middle.free middle after) : Touches disk.free disk after :=
  first.trans (second.mono first.free_subset)

end RowStore.Disk
