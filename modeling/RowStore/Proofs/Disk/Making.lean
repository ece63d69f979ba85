import RowStore.Proofs.Disk.Directory
import RowStore.Proofs.Outcome

/-!
The directories on the way to a path. They are made once: on any disk on which some of them have been
made already, making them ends the same way and with the same entries. So whether a file can be put at
a path does not change with the attempts to do so.
-/

namespace RowStore.Disk

variable {disk later after middle : Disk} {location parent : Location} {names : List String} {path : String}
  {node : Node} {number : Nat} {bytes : List UInt8}

/-- A disk all of whose entries another one has. -/
def Within (disk after : Disk) : Prop :=
  ∀ location node, disk.node? location = some node → after.node? location = some node

namespace Within

theorem refl (disk : Disk) : Within disk disk := fun _ _ found => found

theorem trans (first : Within disk middle) (second : Within middle after) : Within disk after :=
  fun location node found => second location node (first location node found)

theorem antisymm (there : Within disk after) (back : Within after disk) : after.node? = disk.node? := by
  funext location
  exact Option.ext fun node => ⟨back location node, there location node⟩

end Within

theorem Furnished.within (furnished : Furnished disk after) : Within disk after := furnished.kept

theorem within_of_eq (same : after.node? = disk.node?) : Within disk after :=
  fun location node found => by rw [same, found]

theorem child_congr {name : String}
    (same : after.node? (next location name) = disk.node? (next location name)) :
    after.child location name = disk.child location name := by
  rw [child, child, same]

theorem target_congr (same : after.node? = disk.node?) (parent : Location) (path : String) :
    after.target parent path = disk.target parent path := by
  simp only [target, child_congr (congrFun same _)]

/-- An entry that is found is found where it and all directories are kept. -/
theorem find_of_kept
    (directories : ∀ location, disk.node? location = some .directory →
      after.node? location = some .directory)
    (entry : after.node? (locate path) = some node) (found : disk.find path = .ok (location, node)) :
    after.find path = .ok (location, node) := by
  have present := (find_eq_ok found).2
  obtain ⟨_, usable, rest⟩ := Outcome.bind_eq_ok_iff.mp found
  obtain ⟨parent, led, rest⟩ := Outcome.bind_eq_ok_iff.mp rest
  have kept := directoryAt_of_kept directories led
  refine Outcome.bind_eq_ok_iff.mpr ⟨_, usable, Outcome.bind_eq_ok_iff.mpr ⟨parent, kept, ?_⟩⟩
  cases last : (Path.names path).getLast? with
  | none =>
    rw [last] at rest
    exact rest
  | some name =>
    rw [last] at rest
    obtain ⟨reached, child, done⟩ := Outcome.bind_eq_ok_iff.mp rest
    have there := (child_eq_ok_iff disk parent name reached).mp child
    rw [locate_eq_next led last] at present entry
    cases present.symm.trans there
    exact Outcome.bind_eq_ok_iff.mpr ⟨_, (child_eq_ok_iff after parent name _).mpr entry, done⟩

theorem Within.hasEntry (within : Within disk after) (present : disk.hasEntry path = true) :
    after.hasEntry path = true := by
  obtain ⟨location, node, found⟩ := (hasEntry_iff disk path).mp present
  exact (hasEntry_iff after path).mpr ⟨location, node, find_of_kept (fun _ => within _ _) (within _ _ (find_eq_ok found).2) found⟩

theorem Within.hasEntry_eq_false (within : Within disk after) (absent : after.hasEntry path = false) :
    disk.hasEntry path = false := by
  cases present : disk.hasEntry path with
  | false => rfl
  | true => rw [within.hasEntry present] at absent; cases absent

theorem Within.setNode (within : Within disk after) (inside : location ≠ []) (node : Node) :
    Within (disk.setNode location node) (after.setNode location node) := by
  intro other entry found
  rw [node?_setNode _ inside] at found
  rw [node?_setNode _ inside]
  split at found
  · rename_i same
    rw [if_pos same, found]
  · rename_i elsewhere
    rw [if_neg elsewhere, within other entry found]

/-- Directories are made the same way whatever part of them is there already. -/
theorem makeDirectories_congr (disk later : Disk) (location : Location) (names : List String)
    (within : Within disk later) (made : Within later ((makeDirectories location names).runOn disk).2) :
    ((makeDirectories location names).runOn later).1 = ((makeDirectories location names).runOn disk).1 ∧
      ((makeDirectories location names).runOn later).2.node? =
        ((makeDirectories location names).runOn disk).2.node? := by
  induction names generalizing disk later location with
  | nil => exact ⟨rfl, within.antisymm made⟩
  | cons name rest ih =>
    rw [makeDirectories] at made ⊢
    simp only [Step.runOn_bind, Step.runOn_get] at made ⊢
    cases entry : disk.child location name with
    | ok node =>
      have present := within _ _ ((child_eq_ok_iff _ _ _ _).mp entry)
      rw [entry] at made
      rw [(child_eq_ok_iff later location name node).mpr present]
      cases node with
      | file number => exact ⟨rfl, within.antisymm made⟩
      | directory => exact ih disk later _ within made
    | error fault =>
      rw [entry] at made
      cases fault with
      | missing =>
        have missing := node?_of_child_missing entry
        have inside : next location name ≠ [] := fun root => by simp [root] at missing
        have set : (disk.setNode (next location name) .directory).node? (next location name) =
            some .directory := by rw [node?_setNode disk inside, if_pos rfl]
        have there := (furnished_makeDirectories _ (next location name) rest).1.within _ _ set
        cases present : later.node? (next location name) with
        | some node =>
          -- another attempt has made this directory before
          obtain rfl : node = .directory := Option.some.inj ((made _ _ present).symm.trans there)
          rw [(child_eq_ok_iff later location name _).mpr present]
          refine ih _ later _ ?_ made
          intro other node found
          rw [node?_setNode disk inside] at found
          split at found
          · rename_i same
            rw [same, present, found]
          · exact within other node found
        | none =>
          rw [child_congr (present.trans missing.symm), entry]
          refine ih _ _ _ (within.setNode inside .directory) ?_
          intro other node found
          rw [node?_setNode later inside] at found
          split at found
          · rename_i same
            rw [same, there, found]
          · exact made other node found
      | _ =>
        rw [child_congr (congrFun (within.antisymm made) _), entry]
        exact ⟨rfl, within.antisymm made⟩

/-- The disk once the directories before the last name of a path are made. -/
def withParent (disk : Disk) (path : String) : Disk := ((makeParent path).runOn disk).2

theorem furnished_withParent (disk : Disk) (path : String) : Furnished disk (disk.withParent path) := by
  rw [withParent, makeParent, Step.runOn_bind, Step.runOn_ofExcept]
  cases checkPath (Path.parent path) with
  | error fault => exact Furnished.refl disk
  | ok _ => exact (furnished_makeDirectories disk [] (Path.names path).dropLast).1

theorem makeParent_congr (within : Within disk later) (made : Within later (disk.withParent path)) :
    ((makeParent path).runOn later).1 = ((makeParent path).runOn disk).1 ∧
      (later.withParent path).node? = (disk.withParent path).node? := by
  rw [withParent, makeParent, Step.runOn_bind, Step.runOn_ofExcept] at made
  rw [withParent, withParent, makeParent]
  simp only [Step.runOn_bind, Step.runOn_ofExcept]
  cases usable : checkPath (Path.parent path) with
  | error fault =>
    rw [usable] at made
    exact ⟨rfl, within.antisymm made⟩
  | ok _ =>
    rw [usable] at made
    exact makeDirectories_congr disk later [] (Path.names path).dropLast within made

/-- Whether a new file can take the place of a path whose directories are made, its bytes refused or not. -/
def admits (disk : Disk) (refused : Bool) (path : String) (parent : Location) : Except DiskFault Unit := do
  checkPath (Path.join (Path.parent path) temporaryName)
  if refused then throw .writesRefused
  match ← disk.target parent path with
  | (_, some .directory) => throw .isDirectory
  | _ => return ()

theorem admits_congr (same : after.node? = disk.node?) (refused : Bool) (path : String) :
    after.admits refused path = disk.admits refused path := by
  funext parent
  rw [admits, admits, target_congr same]

theorem node?_attempt (disk : Disk) (count : Nat) : (disk.attempt count).2.node? = disk.node? := by
  rw [attempt]
  split <;> rfl

theorem attempt_fst_of_takes (takes : ∀ write, disk.refuses write = false) (count : Nat) :
    (disk.attempt count).1 = false := by
  rw [attempt]
  split
  · rfl
  · exact takes _

/-- What comes of putting a file at a path depends on the entries, and on whether its bytes are refused. -/
theorem runOn_replaceFile_fst (path : String) (bytes : List UInt8) (disk : Disk) :
    ((replaceFile path bytes).runOn disk).1 =
      ((makeParent path).runOn disk).1 >>=
        (disk.withParent path).admits ((disk.withParent path).attempt bytes.length).1 path := by
  rw [replaceFile, Step.runOn_bind, withParent]
  generalize (makeParent path).runOn disk = outcome
  obtain ⟨result, made⟩ := outcome
  cases result with
  | error fault => rfl
  | ok parent =>
    have same := target_congr (node?_attempt made bytes.length) parent path
    change _ = made.admits (made.attempt bytes.length).1 path parent
    rw [admits]
    simp only [Step.runOn_bind, Step.runOn_ofExcept, Step.runOn_get, Step.runOn_set]
    cases checkPath (Path.join (Path.parent path) temporaryName) with
    | error fault => rfl
    | ok _ =>
      simp only
      generalize made.attempt bytes.length = attempted at same ⊢
      obtain ⟨refused, after⟩ := attempted
      cases refused with
      | true => rfl
      | false =>
        simp only [Bool.false_eq_true, if_false, ← same]
        simp only [Step.runOn_bind, Step.runOn_ofExcept]
        cases after.target parent path with
        | error fault => rfl
        | ok entry =>
          obtain ⟨location, entry⟩ := entry
          rcases entry with none | ⟨directory | number⟩ <;> rfl

/-- A path that a file can be put at, as long as its bytes are taken. -/
def IsWritable (disk : Disk) (path : String) : Prop := ((replaceFile path []).runOn disk).1 = .ok ()

/-- A path stays one that a file can be put at, whatever directories on the way to it are made. -/
theorem IsWritable.runOn_replaceFile (writable : disk.IsWritable path) (within : Within disk later)
    (made : Within later (disk.withParent path)) (takes : ∀ write, later.refuses write = false)
    (bytes : List UInt8) : ((replaceFile path bytes).runOn later).1 = .ok () := by
  obtain ⟨result_eq, same⟩ := makeParent_congr within made
  have taken : ((later.withParent path).attempt bytes.length).1 = false :=
    attempt_fst_of_takes
      (fun write => by rw [(furnished_withParent later path).refuses_eq, takes]) bytes.length
  rw [runOn_replaceFile_fst, result_eq, taken, admits_congr same]
  rw [IsWritable, runOn_replaceFile_fst] at writable
  exact writable

/-- A disk that refuses bytes puts no file anywhere. -/
theorem exists_fault_of_refused (refuses : ∀ write, disk.refuses write = true) (some_bytes : bytes ≠ [])
    (path : String) : ∃ fault, ((replaceFile path bytes).runOn disk).1 = .error fault := by
  have refused : ((disk.withParent path).attempt bytes.length).1 = true := by
    rw [attempt, if_neg (by simpa using some_bytes), (furnished_withParent disk path).refuses_eq]
    exact refuses _
  rw [runOn_replaceFile_fst, refused]
  cases ((makeParent path).runOn disk).1 with
  | error fault => exact ⟨fault, rfl⟩
  | ok parent =>
    simp only [admits, bind, Except.bind]
    cases checkPath (Path.join (Path.parent path) temporaryName) with
    | error fault => exact ⟨fault, rfl⟩
    | ok _ => exact ⟨.writesRefused, rfl⟩

/-- An attempt to put a file at a path that fails leaves the directories that it has made. -/
theorem node?_of_replaceFile_failed {fault : DiskFault}
    (failed : ((replaceFile path bytes).runOn disk).1 = .error fault) :
    ((replaceFile path bytes).runOn disk).2.node? = (disk.withParent path).node? := by
  rw [replaceFile, Step.runOn_bind] at failed ⊢
  rw [withParent]
  generalize (makeParent path).runOn disk = outcome at failed ⊢
  obtain ⟨result, middle⟩ := outcome
  cases result with
  | error fault => rfl
  | ok parent =>
    have counted := node?_attempt middle bytes.length
    simp only [Step.runOn_bind, Step.runOn_ofExcept, Step.runOn_get, Step.runOn_set] at failed ⊢
    generalize checkPath (Path.join (Path.parent path) temporaryName) = usable at failed ⊢
    cases usable with
    | error fault => rfl
    | ok _ =>
      simp only at failed ⊢
      generalize middle.attempt bytes.length = attempted at counted failed ⊢
      obtain ⟨refused, middle⟩ := attempted
      cases refused with
      | true => exact counted
      | false =>
        simp only [Bool.false_eq_true, if_false] at failed ⊢
        generalize middle.target parent path = found at failed ⊢
        cases found with
        | error fault => exact counted
        | ok entry =>
          obtain ⟨location, entry⟩ := entry
          cases entry with
          | none => cases failed
          | some node =>
            cases node with
            | directory => exact counted
            | file number => cases failed

/-- There is nothing at a path, also once the directories on the way to it are made. -/
def IsVacant (disk : Disk) (path : String) : Prop := (disk.withParent path).hasEntry path = false

instance (disk : Disk) (path : String) : Decidable (disk.IsVacant path) :=
  inferInstanceAs (Decidable (_ = _))

end RowStore.Disk
