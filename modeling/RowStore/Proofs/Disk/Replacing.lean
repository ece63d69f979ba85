import RowStore.Proofs.Disk.Contents

/-!
Replacing and removing files by their paths. A replaced file is a new one at the place of its path,
and a removed one leaves that place free; every other entry and every other file stays.
-/

namespace RowStore.Disk

variable {disk middle after : Disk} {path : String} {number : Nat} {parent location : Location}
  {bytes : List UInt8}

/-- What replacing a file does. -/
inductive Replaces (path : String) (bytes : List UInt8) (disk : Disk) :
    Except DiskFault Unit → Disk → Prop where
  | failed (fault : DiskFault) (after : Disk) (furnished : Furnished disk after) :
      Replaces path bytes disk (.error fault) after
  | replaced (middle : Disk) (furnished : Furnished disk middle) (leads : Leads middle path)
      (beside_usable : checkPath (Path.join (Path.parent path) temporaryName) = .ok ())
      (no_directory : middle.node? (locate path) ≠ some .directory) :
      Replaces path bytes disk (.ok ()) (middle.addFile (locate path) (.ofBytes bytes)).2

theorem replaces (path : String) (bytes : List UInt8) (disk : Disk) :
    Replaces path bytes disk ((replaceFile path bytes).runOn disk).1
      ((replaceFile path bytes).runOn disk).2 := by
  rw [replaceFile, makeParent]
  simp only [Step.runOn_bind, Step.runOn_ofExcept, Step.runOn_get, Step.runOn_set]
  cases usable : checkPath (Path.parent path) with
  | error fault => exact .failed fault disk (Furnished.refl disk)
  | ok _ =>
    obtain ⟨furnished, made⟩ := furnished_makeDirectories disk [] (Path.names path).dropLast
    simp only
    generalize (makeDirectories [] (Path.names path).dropLast).runOn disk = outcome at furnished made
    obtain ⟨result, middle⟩ := outcome
    cases result with
    | error fault => exact .failed fault middle furnished
    | ok parent =>
      have led := made parent rfl
      simp only
      cases beside : checkPath (Path.join (Path.parent path) temporaryName) with
      | error fault => exact .failed fault middle furnished
      | ok _ =>
        have counted := furnished.trans (furnished_attempt middle bytes.length)
        have kept := directoryAt_of_kept
          (fun location found => (furnished_attempt middle bytes.length).kept location _ found) led
        simp only
        generalize middle.attempt bytes.length = attempted at counted kept
        obtain ⟨refused, middle⟩ := attempted
        cases refused with
        | true => exact .failed .writesRefused middle counted
        | false =>
          simp only [Bool.false_eq_true, if_false]
          cases found : middle.target parent path with
          | error fault => exact .failed fault middle counted
          | ok entry =>
            obtain ⟨location, entry⟩ := entry
            obtain ⟨leads, rfl, node⟩ := target_eq_ok middle location entry kept usable found
            cases entry with
            | none => exact .replaced middle counted leads beside (by simp [node])
            | some entry =>
              cases entry with
              | directory => exact .failed .isDirectory middle counted
              | file number => exact .replaced middle counted leads beside (by simp [node])

/-- A file that is held at a path is replaced as soon as its bytes are taken. -/
theorem Holds.runOn_replaceFile (holds : Holds disk path number)
    (beside_usable : checkPath (Path.join (Path.parent path) temporaryName) = .ok ())
    (takes : ∀ write, disk.refuses write = false) (bytes : List UInt8) :
    (replaceFile path bytes).runOn disk =
      (.ok (), ((disk.attempt bytes.length).2.addFile (locate path) (.ofBytes bytes)).2) := by
  obtain ⟨parent, led⟩ := holds.directories
  obtain ⟨name, last, _, next_eq⟩ := holds.locate_eq led
  have kept := (furnished_attempt disk bytes.length).kept
  have taken : (disk.attempt bytes.length).1 = false := by
    rw [attempt]
    split
    · rfl
    · exact takes _
  have entry := (child_eq_ok_iff (disk.attempt bytes.length).2 parent name _).mpr
    (next_eq ▸ kept _ _ holds.entry)
  have found : (disk.attempt bytes.length).2.target parent path =
      .ok (locate path, some (.file number)) := by
    simp only [target, holds.usable, last, holds.ends_in_name, entry, next_eq, bind, Except.bind,
      pure, Except.pure, Bool.false_eq_true, if_false]
  rw [replaceFile, makeParent]
  simp only [Step.runOn_bind, Step.runOn_ofExcept, Step.runOn_get, Step.runOn_set,
    holds.parent_usable, runOn_makeDirectories led, beside_usable, taken]
  simp only [Bool.false_eq_true, if_false]
  rw [found]
  rfl

/-- The last name of a path leads to its place from where the names before it lead. -/
theorem locate_eq_next {name : String}
    (led : disk.directoryAt [] (Path.names path).dropLast = .ok parent)
    (last : (Path.names path).getLast? = some name) : locate path = next parent name := by
  rw [locate, ← List.dropLast_append_getLast? name last, follow, List.foldl_concat,
    directoryAt_eq_follow led, follow]

theorem find_eq_ok {node : Node} (found : disk.find path = .ok (location, node)) :
    location = locate path ∧ disk.node? (locate path) = some node := by
  rw [find] at found
  cases usable : checkPath path with
  | error fault => simp [usable, bind, Except.bind] at found
  | ok _ =>
    cases led : disk.directoryAt [] (Path.names path).dropLast with
    | error fault => simp [usable, led, bind, Except.bind] at found
    | ok parent =>
      cases last : (Path.names path).getLast? with
      | none =>
        have parent_eq := directoryAt_eq_follow led
        simp only [usable, led, last, bind, Except.bind, pure, Except.pure, Except.ok.injEq,
          Prod.mk.injEq] at found
        obtain ⟨rfl, rfl⟩ := found
        rw [locate, List.getLast?_eq_none_iff.mp last]
        rw [List.getLast?_eq_none_iff.mp last] at parent_eq
        exact ⟨parent_eq, rfl⟩
      | some name =>
        have located := locate_eq_next led last
        cases child : disk.child parent name with
        | error fault => simp [usable, led, last, child, bind, Except.bind] at found
        | ok entry =>
          have present := (child_eq_ok_iff _ _ _ _).mp child
          rw [located]
          cases entry with
          | directory =>
            simp only [usable, led, last, child, bind, Except.bind, pure, Except.pure,
              Except.ok.injEq, Prod.mk.injEq] at found
            obtain ⟨rfl, rfl⟩ := found
            exact ⟨rfl, present⟩
          | file number =>
            cases ends : Path.endsInDirectory path with
            | true =>
              simp [usable, led, last, child, ends, bind, Except.bind, throw, throwThe,
                MonadExceptOf.throw] at found
            | false =>
              simp only [usable, led, last, child, ends, bind, Except.bind, pure, Except.pure,
                Bool.false_eq_true, if_false, Except.ok.injEq, Prod.mk.injEq] at found
              obtain ⟨rfl, rfl⟩ := found
              exact ⟨rfl, present⟩

theorem hasEntry_iff (disk : Disk) (path : String) :
    disk.hasEntry path = true ↔ ∃ location node, disk.find path = .ok (location, node) := by
  rw [hasEntry]
  cases disk.find path with
  | error fault => simp [Except.isOk, Except.toBool]
  | ok entry => simpa [Except.isOk, Except.toBool] using ⟨entry.1, entry.2, rfl⟩

theorem hasEntry_eq_false_of_absent (absent : disk.node? (locate path) = none) :
    disk.hasEntry path = false := by
  rw [Bool.eq_false_iff]
  intro present
  obtain ⟨location, node, found⟩ := (hasEntry_iff disk path).mp present
  cases (find_eq_ok found).2.symm.trans absent

theorem Holds.hasEntry_eq (holds : Holds disk path number) : disk.hasEntry path = true := by
  have read := holds.fileAt_eq
  rw [fileAt, nodeAt] at read
  cases found : disk.find path with
  | error fault => simp [found, bind, Except.bind] at read
  | ok entry => exact (hasEntry_iff disk path).mpr ⟨entry.1, entry.2, found⟩

theorem node?_of_fileAt (found : disk.fileAt path = .ok number) :
    disk.node? (locate path) = some (.file number) := by
  rw [fileAt, nodeAt] at found
  cases reached : disk.find path with
  | error fault => simp [reached, bind, Except.bind] at found
  | ok entry =>
    obtain ⟨location, node⟩ := entry
    obtain ⟨_, present⟩ := find_eq_ok reached
    cases node with
    | directory =>
      simp [reached, bind, Except.bind, pure, Except.pure, throw, throwThe,
        MonadExceptOf.throw] at found
    | file other =>
      simp only [reached, bind, Except.bind, pure, Except.pure, Except.ok.injEq] at found
      rw [present, found]

/-- What removing a file does. -/
inductive Removes (path : String) (disk : Disk) : Except DiskFault Unit → Disk → Prop where
  | failed (fault : DiskFault) : Removes path disk (.error fault) disk
  | removed (number : Nat) (entry : disk.node? (locate path) = some (.file number)) :
      Removes path disk (.ok ()) (disk.eraseNode (locate path))

theorem removes (path : String) (disk : Disk) :
    Removes path disk ((removeFile path).runOn disk).1 ((removeFile path).runOn disk).2 := by
  rw [removeFile]
  simp only [Step.runOn_bind, Step.runOn_get, Step.runOn_ofExcept]
  cases found : disk.find path with
  | error fault => exact .failed fault
  | ok entry =>
    obtain ⟨location, node⟩ := entry
    obtain ⟨rfl, present⟩ := find_eq_ok found
    cases node with
    | directory => exact .failed .isDirectory
    | file number => exact .removed number present

/-- A file that is held at a path is removed. -/
theorem Holds.runOn_removeFile (holds : Holds disk path number) :
    (removeFile path).runOn disk = (.ok (), disk.eraseNode (locate path)) := by
  obtain ⟨parent, led⟩ := holds.directories
  obtain ⟨name, last, _, next_eq⟩ := holds.locate_eq led
  have entry := (child_eq_ok_iff disk parent name _).mpr (next_eq ▸ holds.entry)
  have found : disk.find path = .ok (locate path, .file number) := by
    simp only [find, holds.usable, led, last, entry, holds.ends_in_name, next_eq, bind, Except.bind,
      pure, Except.pure, Bool.false_eq_true, if_false]
  rw [removeFile]
  simp only [Step.runOn_bind, Step.runOn_get, Step.runOn_ofExcept, found]
  rfl

theorem Replaces.intact {result : Except DiskFault Unit} (intact : disk.Intact)
    (replaces : Replaces path bytes disk result after) : after.Intact := by
  cases replaces with
  | failed fault after furnished => exact furnished.intact intact
  | replaced middle furnished leads beside_usable no_directory =>
    exact (furnished.intact intact).addFile leads.locate_ne_nil _

theorem Removes.intact {result : Except DiskFault Unit} (intact : disk.Intact)
    (removes : Removes path disk result after) : after.Intact := by
  cases removes with
  | failed fault => exact intact
  | removed number entry =>
    intro location other found
    have inside : locate path ≠ [] := by
      intro root
      simp [root] at entry
    rw [node?_eraseNode disk inside] at found
    split at found
    · cases found
    · exact intact location other found

end RowStore.Disk
