import RowStore.Proofs.Disk.Entries

/-!
Opening files by their paths. Opening leaves the entries there are and makes at most the file and the
directories on the way to it; a file that is held at a path is the one that is opened there.
-/

namespace RowStore.Disk

variable {disk middle after : Disk} {path : String} {number : Nat} {parent : Location}

/-- Where a path leads, whatever entries there are. -/
def locate (path : String) : Location := follow [] (Path.names path)

/-- A path that can end in a file and whose directories are there. -/
structure Leads (disk : Disk) (path : String) : Prop where
  usable : checkPath path = .ok ()
  parent_usable : checkPath (Path.parent path) = .ok ()
  directories : ∃ parent, disk.directoryAt [] (Path.names path).dropLast = .ok parent
  ends_in_name : Path.endsInDirectory path = false

/-- A path that leads to a file. -/
structure Holds (disk : Disk) (path : String) (number : Nat) : Prop extends Leads disk path where
  entry : disk.node? (locate path) = some (.file number)

/-- A path that ends in a name leads into the directory that the names before it lead to. -/
theorem exists_name_of_ends_in_name (ends_in_name : Path.endsInDirectory path = false) :
    ∃ name, (Path.names path).getLast? = some name ∧ name ≠ ".." ∧
      locate path = follow [] (Path.names path).dropLast ++ [name] := by
  rw [Path.endsInDirectory] at ends_in_name
  cases last : (Path.segments path).getLast? with
  | none => simp [last] at ends_in_name
  | some name =>
    simp only [last, Bool.or_eq_false_iff, beq_eq_false_iff_ne] at ends_in_name
    obtain ⟨⟨nonempty, other⟩, inside⟩ := ends_in_name
    have split := List.dropLast_append_getLast? name last
    have names : Path.names path =
        (Path.segments path).dropLast.filter (fun name => name != "" && name != ".") ++ [name] := by
      rw [Path.names, ← split, List.filter_append]
      simp [nonempty, other]
    refine ⟨name, ?_, inside, ?_⟩
    · rw [names, List.getLast?_concat]
    · rw [locate, names, List.dropLast_concat, follow, List.foldl_concat, next]
      simp [inside, follow]

namespace Leads

theorem locate_eq (leads : Leads disk path)
    (led : disk.directoryAt [] (Path.names path).dropLast = .ok parent) :
    ∃ name, (Path.names path).getLast? = some name ∧ locate path = parent ++ [name] ∧
      next parent name = locate path := by
  obtain ⟨name, last, inside, located⟩ := exists_name_of_ends_in_name leads.ends_in_name
  have same := directoryAt_eq_follow led
  refine ⟨name, last, by rw [located, same], ?_⟩
  rw [next, located, same]
  simp [inside]

theorem locate_ne_nil (leads : Leads disk path) : locate path ≠ [] := by
  obtain ⟨parent, led⟩ := leads.directories
  obtain ⟨name, _, located, _⟩ := leads.locate_eq led
  simp [located]

theorem of_kept (leads : Leads disk path)
    (kept : ∀ location, disk.node? location = some .directory →
      after.node? location = some .directory) : Leads after path := by
  obtain ⟨parent, led⟩ := leads.directories
  exact ⟨leads.usable, leads.parent_usable, ⟨parent, directoryAt_of_kept kept led⟩, leads.ends_in_name⟩

end Leads

theorem Holds.fileAt_eq (holds : Holds disk path number) : disk.fileAt path = .ok number := by
  obtain ⟨parent, led⟩ := holds.directories
  obtain ⟨name, last, _, next_eq⟩ := holds.locate_eq led
  have entry := (child_eq_ok_iff disk parent name _).mpr (next_eq ▸ holds.entry)
  simp only [fileAt, nodeAt, find, holds.usable, led, last, entry, holds.ends_in_name, bind,
    Except.bind, pure, Except.pure, Bool.false_eq_true, if_false]

/-- The entry that a path ends in is the one at its place, if it ends in a name at all. -/
theorem target_eq_ok (disk : Disk) (location : Location) (entry : Option Node)
    (led : disk.directoryAt [] (Path.names path).dropLast = .ok parent)
    (parent_usable : checkPath (Path.parent path) = .ok ())
    (found : disk.target parent path = .ok (location, entry)) :
    Leads disk path ∧ location = locate path ∧ disk.node? (locate path) = entry := by
  rw [target] at found
  cases usable : checkPath path with
  | error fault => simp [usable, bind, Except.bind] at found
  | ok _ =>
    cases last : (Path.names path).getLast? with
    | none => simp [usable, last, bind, Except.bind, throw, throwThe, MonadExceptOf.throw] at found
    | some name =>
      cases ends : Path.endsInDirectory path with
      | true =>
        simp [usable, last, ends, bind, Except.bind, throw, throwThe, MonadExceptOf.throw] at found
      | false =>
        have leads : Leads disk path := ⟨usable, parent_usable, ⟨parent, led⟩, ends⟩
        obtain ⟨_, same, _, next_eq⟩ := leads.locate_eq led
        cases last.symm.trans same
        simp only [usable, last, ends, bind, Except.bind, Bool.false_eq_true, if_false] at found
        cases child : disk.child parent name with
        | ok node =>
          simp only [child, pure, Except.pure, Except.ok.injEq, Prod.mk.injEq] at found
          obtain ⟨rfl, rfl⟩ := found
          exact ⟨leads, next_eq, next_eq ▸ (child_eq_ok_iff _ _ _ _).mp child⟩
        | error fault =>
          cases fault with
          | missing =>
            simp only [child, pure, Except.pure, Except.ok.injEq, Prod.mk.injEq] at found
            obtain ⟨rfl, rfl⟩ := found
            exact ⟨leads, next_eq, next_eq ▸ node?_of_child_missing child⟩
          | _ => simp [child, throw, throwThe, MonadExceptOf.throw] at found

/-- What opening a file does. -/
inductive Opens (path : String) (truncate : Bool) (disk : Disk) : Except DiskFault Nat → Disk → Prop where
  | failed (fault : DiskFault) (after : Disk) (furnished : Furnished disk after) :
      Opens path truncate disk (.error fault) after
  | present (middle : Disk) (number : Nat) (furnished : Furnished disk middle)
      (holds : Holds middle path number) :
      Opens path truncate disk (.ok number)
        (if truncate then middle.modifyContents number fun _ => .empty else middle)
  | created (middle : Disk) (furnished : Furnished disk middle) (leads : Leads middle path)
      (free : middle.node? (locate path) = none) :
      Opens path truncate disk (.ok middle.files.size) (middle.addFile (locate path) .empty).2

theorem opens (path : String) (truncate : Bool) (disk : Disk) :
    Opens path truncate disk ((openFile path truncate).runOn disk).1
      ((openFile path truncate).runOn disk).2 := by
  rw [openFile, makeParent]
  simp only [Step.runOn_bind, Step.runOn_ofExcept, Step.runOn_get]
  cases usable : checkPath (Path.parent path) with
  | error fault => exact .failed fault disk (Furnished.refl disk)
  | ok _ =>
    obtain ⟨furnished, made⟩ := furnished_makeDirectories disk [] (Path.names path).dropLast
    simp only
    generalize (makeDirectories [] (Path.names path).dropLast).runOn disk = outcome at furnished made
    obtain ⟨result, middle⟩ := outcome
    cases result with
    | error fault => exact .failed fault middle furnished
    | ok parent =>
      have led := made parent rfl
      simp only
      cases found : middle.target parent path with
      | error fault => exact .failed fault middle furnished
      | ok entry =>
        obtain ⟨location, entry⟩ := entry
        obtain ⟨leads, rfl, node⟩ := target_eq_ok middle location entry led usable found
        cases entry with
        | none => exact .created middle furnished leads node
        | some entry =>
          cases entry with
          | directory => exact .failed .isDirectory middle furnished
          | file number =>
            have opened : Opens path truncate disk (.ok number) _ :=
              .present middle number furnished ⟨leads, node⟩
            cases truncate <;> exact opened

/-- A file that is held at a path is opened without a trace. -/
theorem Holds.runOn_openFile (holds : Holds disk path number) :
    (openFile path false).runOn disk = (.ok number, disk) := by
  obtain ⟨parent, led⟩ := holds.directories
  obtain ⟨name, last, _, next_eq⟩ := holds.locate_eq led
  have entry := (child_eq_ok_iff disk parent name _).mpr (next_eq ▸ holds.entry)
  have found : disk.target parent path = .ok (next parent name, some (.file number)) := by
    simp only [target, holds.usable, last, holds.ends_in_name, entry, bind, Except.bind, pure,
      Except.pure, Bool.false_eq_true, if_false]
  rw [openFile, makeParent]
  simp only [Step.runOn_bind, Step.runOn_ofExcept, Step.runOn_get, holds.parent_usable,
    runOn_makeDirectories led, found]
  rfl

end RowStore.Disk
