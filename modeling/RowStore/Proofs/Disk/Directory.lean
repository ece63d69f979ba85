import RowStore.Proofs.Disk.Joining
import RowStore.Proofs.Disk.Replacing

/-!
A data directory. No two of its entries share a file, so that what is done with one of its files spares
all others.
-/

namespace RowStore.Disk

variable {disk middle after : Disk} {location other : Location} {number file : Nat}
  {directory name path : String} {named wider : String → Prop}

/-- A disk of which nothing but the contents of one file has changed. -/
structure OnlyFile (file : Nat) (disk after : Disk) : Prop where
  node?_eq : ∀ location, after.node? location = disk.node? location
  size_eq : after.files.size = disk.files.size
  contents_eq : ∀ other, other ≠ file → after.contents other = disk.contents other

theorem OnlyFile.refl (file : Nat) (disk : Disk) : OnlyFile file disk disk :=
  ⟨fun _ => rfl, rfl, fun _ _ => rfl⟩

theorem OnlyFile.trans (first : OnlyFile file disk middle) (second : OnlyFile file middle after) :
    OnlyFile file disk after := by
  constructor
  case node?_eq => exact fun location => (second.node?_eq location).trans (first.node?_eq location)
  case size_eq => rw [second.size_eq, first.size_eq]
  case contents_eq =>
    exact fun other apart => (second.contents_eq other apart).trans (first.contents_eq other apart)

theorem onlyFile_modifyContents (file : Nat) (change : Contents → Contents) (disk : Disk) :
    OnlyFile file disk (disk.modifyContents file change) := by
  refine ⟨fun _ => rfl, size_files_modifyContents _ _ _, fun other apart => ?_⟩
  simp only [contents, modifyContents, Array.getD_eq_getD_getElem?, Array.getElem?_modify,
    if_neg (Ne.symm apart)]

/-- A disk that has kept its directories and the file at a place. -/
structure Spares (location : Location) (number : Nat) (disk after : Disk) : Prop where
  directories : ∀ other, disk.node? other = some .directory → after.node? other = some .directory
  entry : disk.node? location = some (.file number) → after.node? location = some (.file number)
  known : number < disk.files.size → number < after.files.size
  contents_eq : number < disk.files.size → after.contents number = disk.contents number

theorem Spares.trans (first : Spares location number disk middle)
    (second : Spares location number middle after) : Spares location number disk after := by
  constructor
  case directories => exact fun other found => second.directories other (first.directories other found)
  case entry => exact fun found => second.entry (first.entry found)
  case known => exact fun known => second.known (first.known known)
  case contents_eq =>
    exact fun known => (second.contents_eq (first.known known)).trans (first.contents_eq known)

theorem OnlyFile.spares (onlyFile : OnlyFile file disk after) (apart : number ≠ file) :
    Spares location number disk after := by
  constructor
  case directories => exact fun other found => by rw [onlyFile.node?_eq, found]
  case entry => exact fun found => by rw [onlyFile.node?_eq, found]
  case known => exact fun known => by rw [onlyFile.size_eq]; exact known
  case contents_eq => exact fun _ => onlyFile.contents_eq number apart

theorem Furnished.spares (furnished : Furnished disk after) : Spares location number disk after := by
  constructor
  case directories => exact fun other found => furnished.kept _ _ found
  case entry => exact fun found => furnished.kept _ _ found
  case known => exact fun known => by rw [furnished.files_eq]; exact known
  case contents_eq => exact fun _ => furnished.contents_eq number

/-- A new file spares those at other places. -/
theorem spares_addFile (inside : location ≠ []) (elsewhere : other ≠ location)
    (no_directory : disk.node? location ≠ some .directory) (contents : Contents) :
    Spares other number disk (disk.addFile location contents).2 := by
  constructor
  case directories =>
    intro place found
    rw [node?_addFile disk inside, if_neg, found]
    rintro rfl
    exact no_directory found
  case entry => exact fun found => by rw [node?_addFile disk inside, if_neg elsewhere, found]
  case known =>
    intro known
    simp only [addFile, Array.size_push]
    exact Nat.lt_succ_of_lt known
  case contents_eq =>
    exact fun known => by rw [contents_addFile, if_neg (Nat.ne_of_lt known)]

/-- A file that is removed spares those at other places. -/
theorem spares_eraseNode (inside : location ≠ []) (elsewhere : other ≠ location)
    (no_directory : disk.node? location ≠ some .directory) :
    Spares other number disk (disk.eraseNode location) := by
  constructor
  case directories =>
    intro place found
    rw [node?_eraseNode disk inside, if_neg, found]
    rintro rfl
    exact no_directory found
  case entry => exact fun found => by rw [node?_eraseNode disk inside, if_neg elsewhere, found]
  case known => exact id
  case contents_eq => exact fun _ => rfl

theorem Holds.spared (holds : Holds disk path number)
    (spares : Spares (locate path) number disk after) : Holds after path number :=
  ⟨holds.toLeads.of_kept spares.directories, spares.entry holds.entry⟩

/-- The place of a name in a directory. -/
def place (directory name : String) : Location := locate directory ++ [name]

theorem place_ne_nil (directory name : String) : place directory name ≠ [] := by simp [place]

theorem place_inj : place directory name = place directory path ↔ name = path := by simp [place]

/-- A disk that takes all writes and has a directory in which no two names stand for one file, and every
file has one of the given names. -/
structure Tidy (directory : String) (named : String → Prop) (disk : Disk) : Prop where
  intact : disk.Intact
  takes : ∀ write, disk.refuses write = false
  apart : ∀ name other number, disk.node? (place directory name) = some (.file number) →
    disk.node? (place directory other) = some (.file number) → name = other
  named : ∀ name number, disk.node? (place directory name) = some (.file number) → named name

namespace Tidy

theorem mono (tidy : disk.Tidy directory named) (implied : ∀ name, named name → wider name) :
    disk.Tidy directory wider :=
  ⟨tidy.intact, tidy.takes, tidy.apart, fun name _ found => implied name (tidy.named _ _ found)⟩

theorem furnished (tidy : disk.Tidy directory named) (furnished : Furnished disk after) :
    after.Tidy directory named := by
  have earlier : ∀ location number, after.node? location = some (.file number) →
      disk.node? location = some (.file number) := by
    intro location number found
    rcases furnished.gained location _ found with earlier | new
    · exact earlier
    · cases new
  constructor
  case intact => exact furnished.intact tidy.intact
  case takes => exact fun write => by rw [furnished.refuses_eq, tidy.takes]
  case apart =>
    exact fun name other number first second =>
      tidy.apart name other number (earlier _ _ first) (earlier _ _ second)
  case named => exact fun name number found => tidy.named name number (earlier _ _ found)

theorem onlyFile (tidy : disk.Tidy directory named) (onlyFile : OnlyFile file disk after)
    (refuses_eq : after.refuses = disk.refuses) : after.Tidy directory named := by
  constructor
  case intact =>
    intro location number found
    rw [onlyFile.node?_eq] at found
    rw [onlyFile.size_eq]
    exact tidy.intact location number found
  case takes => exact fun write => by rw [refuses_eq, tidy.takes]
  case apart =>
    intro name other number first second
    rw [onlyFile.node?_eq] at first second
    exact tidy.apart name other number first second
  case named =>
    intro name number found
    rw [onlyFile.node?_eq] at found
    exact tidy.named name number found

theorem addFile (tidy : disk.Tidy directory named) (name : String) (contents : Contents) :
    (disk.addFile (place directory name) contents).2.Tidy directory
      fun other => other = name ∨ named other := by
  have entry : ∀ other, (disk.addFile (place directory name) contents).2.node? (place directory other) =
      if other = name then some (.file disk.files.size) else disk.node? (place directory other) := by
    intro other
    rw [node?_addFile disk (place_ne_nil directory name)]
    simp only [place_inj]
  constructor
  case intact => exact tidy.intact.addFile (place_ne_nil directory name) contents
  case takes => exact tidy.takes
  case apart =>
    -- the number of the new file is larger than any that was known
    have fresh : ∀ other, disk.node? (place directory other) ≠ some (.file disk.files.size) :=
      fun other found => Nat.lt_irrefl _ (tidy.intact _ _ found)
    intro first second number
    rw [entry, entry]
    split <;> split
    · intros
      simp_all
    · intro found present
      cases found
      exact absurd present (fresh second)
    · intro present found
      cases found
      exact absurd present (fresh first)
    · exact tidy.apart first second number
  case named =>
    intro other number found
    rw [entry] at found
    split at found
    · exact .inl (by assumption)
    · exact .inr (tidy.named other number found)

theorem eraseNode (tidy : disk.Tidy directory named) (name : String) :
    (disk.eraseNode (place directory name)).Tidy directory
      fun other => other ≠ name ∧ named other := by
  have entry : ∀ other number,
      (disk.eraseNode (place directory name)).node? (place directory other) = some (.file number) →
        other ≠ name ∧ disk.node? (place directory other) = some (.file number) := by
    intro other number found
    rw [node?_eraseNode disk (place_ne_nil directory name)] at found
    split at found
    · cases found
    · rename_i elsewhere
      exact ⟨fun same => elsewhere (place_inj.mpr same), found⟩
  constructor
  case intact =>
    intro location number found
    rw [node?_eraseNode disk (place_ne_nil directory name)] at found
    split at found
    · cases found
    · exact tidy.intact location number found
  case takes => exact tidy.takes
  case apart =>
    exact fun first second number found present =>
      tidy.apart first second number (entry _ _ found).2 (entry _ _ present).2
  case named =>
    exact fun other number found => ⟨(entry _ _ found).1, tidy.named other number (entry _ _ found).2⟩

end Tidy

end RowStore.Disk
