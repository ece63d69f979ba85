import Mathlib
import RowStore.Disk.Files

/-!
The entries of a disk. Where names lead depends on the names alone, and a disk that has gained
directories still leads them to the entries that were there.
-/

namespace RowStore.Disk

variable {disk middle after : Disk} {location parent : Location} {names : List String}

@[simp]
theorem node?_root (disk : Disk) : disk.node? [] = some .directory := rfl

theorem node?_of_ne_nil (disk : Disk) (inside : location ≠ []) :
    disk.node? location = disk.nodes[location]? := by
  rw [node?, if_neg (by simpa using inside)]

theorem node?_congr (same : after.nodes = disk.nodes) (location : Location) :
    after.node? location = disk.node? location := by
  rw [node?, node?, same]

theorem getElem?_insert (nodes : Std.TreeMap Location Node) (location other : Location)
    (node : Node) :
    (nodes.insert location node)[other]? = if other = location then some node else nodes[other]? := by
  rw [Std.TreeMap.getElem?_insert]
  simp only [Std.compare_eq_iff_eq, eq_comm (a := location)]

theorem node?_setNode (disk : Disk) (inside : location ≠ []) (node : Node) (other : Location) :
    (disk.setNode location node).node? other =
      if other = location then some node else disk.node? other := by
  by_cases root : other = []
  · rw [root, if_neg (Ne.symm inside)]
    rfl
  · rw [node?_of_ne_nil _ root, node?_of_ne_nil _ root, setNode, getElem?_insert]

theorem node?_addFile (disk : Disk) (inside : location ≠ []) (contents : Contents)
    (other : Location) :
    (disk.addFile location contents).2.node? other =
      if other = location then some (.file disk.files.size) else disk.node? other :=
  node?_setNode disk inside _ other

theorem node?_eraseNode (disk : Disk) (inside : location ≠ []) (other : Location) :
    (disk.eraseNode location).node? other =
      if other = location then none else disk.node? other := by
  by_cases root : other = []
  · rw [root, if_neg (Ne.symm inside)]
    rfl
  · rw [node?_of_ne_nil _ root, node?_of_ne_nil _ root, eraseNode, Std.TreeMap.getElem?_erase]
    simp only [Std.compare_eq_iff_eq, eq_comm (a := location)]

/-- A disk that has gained nothing but directories, whatever writes it has counted. -/
structure Furnished (disk after : Disk) : Prop where
  files_eq : after.files = disk.files
  refuses_eq : after.refuses = disk.refuses
  kept : ∀ location node, disk.node? location = some node → after.node? location = some node
  gained : ∀ location node, after.node? location = some node →
    disk.node? location = some node ∨ node = .directory

theorem Furnished.refl (disk : Disk) : Furnished disk disk :=
  ⟨rfl, rfl, fun _ _ found => found, fun _ _ found => .inl found⟩

theorem Furnished.trans (first : Furnished disk middle) (second : Furnished middle after) :
    Furnished disk after := by
  constructor
  case files_eq => rw [second.files_eq, first.files_eq]
  case refuses_eq => rw [second.refuses_eq, first.refuses_eq]
  case kept => exact fun location node found => second.kept _ _ (first.kept _ _ found)
  case gained =>
    intro location node found
    rcases second.gained location node found with earlier | new
    · exact first.gained location node earlier
    · exact .inr new

theorem furnished_attempt (disk : Disk) (count : Nat) : Furnished disk (disk.attempt count).2 := by
  rw [attempt]
  split
  · exact Furnished.refl disk
  · exact ⟨rfl, rfl, fun _ _ found => found, fun _ _ found => .inl found⟩

theorem furnished_setNode (missing : disk.node? location = none) :
    Furnished disk (disk.setNode location .directory) := by
  have inside : location ≠ [] := by
    rintro rfl
    simp at missing
  refine ⟨rfl, rfl, ?kept, ?gained⟩
  case kept =>
    intro other node found
    rw [node?_setNode disk inside, if_neg, found]
    rintro rfl
    rw [missing] at found
    cases found
  case gained =>
    intro other node found
    rw [node?_setNode disk inside] at found
    split at found
    · exact .inr (Option.some.inj found).symm
    · exact .inl found

theorem child_eq_ok_iff (disk : Disk) (location : Location) (name : String) (node : Node) :
    disk.child location name = .ok node ↔ disk.node? (next location name) = some node := by
  rw [child]
  cases disk.node? (next location name) <;> simp

theorem node?_of_child_missing {name : String} (missing : disk.child location name = .error .missing) :
    disk.node? (next location name) = none := by
  rw [child] at missing
  cases found : disk.node? (next location name) with
  | none => rfl
  | some node => simp [found] at missing

/-- Where names lead from a location, whatever entries there are. -/
def follow (location : Location) (names : List String) : Location := names.foldl Disk.next location

theorem directoryAt_cons (disk : Disk) (location : Location) (name : String) (rest : List String) :
    disk.directoryAt location (name :: rest) = .ok parent ↔
      disk.node? (next location name) = some .directory ∧
        disk.directoryAt (next location name) rest = .ok parent := by
  rw [directoryAt, ← child_eq_ok_iff]
  cases disk.child location name with
  | error fault => simp [bind, Except.bind]
  | ok node => cases node <;> simp [bind, Except.bind, throw, throwThe, MonadExceptOf.throw]

theorem directoryAt_eq_follow (led : disk.directoryAt location names = .ok parent) :
    parent = follow location names := by
  induction names generalizing location with
  | nil => exact (Except.ok.inj led).symm
  | cons name rest ih => exact ih ((directoryAt_cons disk location name rest).mp led).2

theorem directoryAt_of_kept
    (kept : ∀ location, disk.node? location = some .directory →
      after.node? location = some .directory)
    (led : disk.directoryAt location names = .ok parent) :
    after.directoryAt location names = .ok parent := by
  induction names generalizing location with
  | nil => exact led
  | cons name rest ih =>
    obtain ⟨found, later⟩ := (directoryAt_cons disk location name rest).mp led
    exact (directoryAt_cons after location name rest).mpr ⟨kept _ found, ih later⟩

/-- The directories on the way are there once they are made, and nothing else has changed. -/
theorem furnished_makeDirectories (disk : Disk) (location : Location) (names : List String) :
    Furnished disk ((makeDirectories location names).runOn disk).2 ∧
      ∀ parent, ((makeDirectories location names).runOn disk).1 = .ok parent →
        ((makeDirectories location names).runOn disk).2.directoryAt location names = .ok parent := by
  induction names generalizing disk location with
  | nil => exact ⟨Furnished.refl disk, fun parent made => made⟩
  | cons name rest ih =>
    rw [makeDirectories]
    simp only [Step.runOn_bind, Step.runOn_get]
    cases entry : disk.child location name with
    | ok node =>
      cases node with
      | file number => exact ⟨Furnished.refl disk, fun parent made => by cases made⟩
      | directory =>
        obtain ⟨furnished, led⟩ := ih disk (next location name)
        refine ⟨furnished, fun parent made => ?_⟩
        rw [directoryAt_cons]
        exact ⟨furnished.kept _ _ ((child_eq_ok_iff _ _ _ _).mp entry), led parent made⟩
    | error fault =>
      cases fault with
      | missing =>
        have missing := node?_of_child_missing entry
        have first := furnished_setNode missing
        obtain ⟨later, led⟩ := ih (disk.setNode (next location name) .directory)
          (next location name)
        refine ⟨first.trans later, fun parent made => ?_⟩
        have inside : next location name ≠ [] := by
          intro root
          simp [root] at missing
        rw [directoryAt_cons]
        refine ⟨later.kept _ _ ?_, led parent made⟩
        rw [node?_setNode disk inside, if_pos rfl]
      | _ => exact ⟨Furnished.refl disk, fun parent made => by cases made⟩

/-- Nothing is made where the directories on the way are there. -/
theorem runOn_makeDirectories (led : disk.directoryAt location names = .ok parent) :
    (makeDirectories location names).runOn disk = (.ok parent, disk) := by
  induction names generalizing location with
  | nil =>
    rw [makeDirectories, Step.runOn_pure, directoryAt_eq_follow led]
    rfl
  | cons name rest ih =>
    obtain ⟨found, later⟩ := (directoryAt_cons disk location name rest).mp led
    rw [makeDirectories]
    simp only [Step.runOn_bind, Step.runOn_get]
    rw [(child_eq_ok_iff _ _ _ _).mpr found]
    exact ih later

end RowStore.Disk
