import RowStore.Heap.Registry
import RowStore.Proofs.Heap.Loading

/-!
The registry of open heaps: what it finds after a change, and all that creating or dropping the heap of
a table can do to it and to the disk.
-/

namespace RowStore.HeapRegistry

variable {registry next : HeapRegistry} {disk after : Disk} {table other : String} {heap : HeapFile}
  {schema : Schema}

theorem getElem?_insert (registry : HeapRegistry) (table : String) (heap : HeapFile) (key : String) :
    (registry.insert table heap).heaps[key]? =
      if key = Text.fold table then some heap else registry.heaps[key]? := by
  rw [insert, Std.TreeMap.getElem?_insert]
  simp only [Std.compare_eq_iff_eq, eq_comm (a := Text.fold table)]

theorem getElem?_erase (registry : HeapRegistry) (table : String) (key : String) :
    (registry.erase table).heaps[key]? =
      if key = Text.fold table then none else registry.heaps[key]? := by
  rw [erase, Std.TreeMap.getElem?_erase]
  simp only [Std.compare_eq_iff_eq, eq_comm (a := Text.fold table)]

theorem get?_insert (registry : HeapRegistry) (table other : String) (heap : HeapFile) :
    (registry.insert table heap).get? other =
      if Text.fold other = Text.fold table then some heap else registry.get? other :=
  getElem?_insert registry table heap (Text.fold other)

theorem contains_eq_isSome (registry : HeapRegistry) (table : String) :
    registry.contains table = (registry.get? table).isSome := by
  rw [contains, get?, Std.TreeMap.contains_eq_isSome_getElem?]

/-- What creating the heap of a table does. -/
inductive Creates (schema : Schema) (registry : HeapRegistry) (disk : Disk) :
    Except StorageError HeapFile → HeapRegistry → Disk → Prop where
  | known (present : registry.contains schema.table = true) :
      Creates schema registry disk (.error (.heapExists schema.table)) registry disk
  | inMemory (absent : registry.contains schema.table = false)
      (nowhere : registry.path? schema.table = none) :
      Creates schema registry disk (.ok (.inMemory schema))
        (registry.insert schema.table (.inMemory schema)) disk
  | failed (path : String) (fault : DiskFault) (after : Disk)
      (absent : registry.contains schema.table = false)
      (somewhere : registry.path? schema.table = some path)
      (opens : Disk.Opens path true disk (.error fault) after) :
      Creates schema registry disk (.error (.disk fault)) registry after
  | created (path : String) (number : Nat) (after : Disk)
      (absent : registry.contains schema.table = false)
      (somewhere : registry.path? schema.table = some path)
      (opens : Disk.Opens path true disk (.ok number) after) :
      Creates schema registry disk (.ok ⟨schema, [], .empty, some ⟨path, number⟩⟩)
        (registry.insert schema.table ⟨schema, [], .empty, some ⟨path, number⟩⟩) after

theorem creates (schema : Schema) (registry : HeapRegistry) (disk : Disk) :
    Creates schema registry disk ((create schema).runOn (registry, disk)).1
      ((create schema).runOn (registry, disk)).2.1 ((create schema).runOn (registry, disk)).2.2 := by
  rw [create]
  simp only [Step.runOn_bind, Step.runOn_get]
  cases present : registry.contains schema.table with
  | true => exact .known present
  | false =>
    simp only [Bool.false_eq_true, if_false]
    cases somewhere : registry.path? schema.table with
    | none => exact .inMemory present somewhere
    | some path =>
      have opens := Disk.opens path true disk
      simp only [HeapFile.createAt, PageFile.createAt, Step.runOn_onSecond, Step.runOn_bind,
        Step.runOn_mapError, Step.runOn_pure]
      generalize (Disk.openFile path true).runOn disk = outcome at opens
      obtain ⟨result, after⟩ := outcome
      cases result with
      | error fault => exact .failed path fault after present somewhere opens
      | ok number => exact .created path number after present somewhere opens

theorem Creates.of_ok (creates : Creates schema registry disk (.ok heap) next after) :
    next = registry.insert schema.table heap ∧ heap.Sound ∧ heap.schema = schema := by
  cases creates with
  | inMemory => exact ⟨rfl, HeapFile.sound_empty schema none, rfl⟩
  | created path number => exact ⟨rfl, HeapFile.sound_empty schema _, rfl⟩

theorem Creates.of_error {error : StorageError}
    (creates : Creates schema registry disk (.error error) next after) : next = registry := by
  cases creates <;> rfl

/-- The outcome of removing the file of a heap, which may be gone already. -/
def removalOutcome : Except DiskFault Unit → Except StorageError Unit
  | .ok () | .error .missing => .ok ()
  | .error fault => .error (.disk fault)

/-- What dropping the heap of a table does. -/
inductive Drops (table : String) (registry : HeapRegistry) (disk : Disk) :
    Except StorageError Unit → HeapRegistry → Disk → Prop where
  | missing (absent : registry.get? table = none) :
      Drops table registry disk (.error (.heapMissing table)) registry disk
  | closed (heap : HeapFile) (present : registry.get? table = some heap)
      (nowhere : heap.backing = none) :
      Drops table registry disk (.ok ()) (registry.erase table) disk
  | removed (heap : HeapFile) (file : PageFile) (result : Except DiskFault Unit) (after : Disk)
      (present : registry.get? table = some heap) (somewhere : heap.backing = some file)
      (ran : (Disk.removeFile file.path).runOn disk = (result, after)) :
      Drops table registry disk (removalOutcome result) (registry.erase table) after

theorem drops (table : String) (registry : HeapRegistry) (disk : Disk) :
    Drops table registry disk ((drop table).runOn (registry, disk)).1
      ((drop table).runOn (registry, disk)).2.1 ((drop table).runOn (registry, disk)).2.2 := by
  rw [drop]
  simp only [Step.runOn_bind, Step.runOn_get]
  cases present : registry.get? table with
  | none => exact .missing present
  | some heap =>
    simp only [HeapFile.destroy, Step.runOn_bind, Step.runOn_get, Step.runOn_modify, Step.runOn_set,
      Step.runOn_ofExcept]
    cases somewhere : heap.backing with
    | none => exact .closed heap present somewhere
    | some file =>
      have removes := Disk.removes file.path disk
      simp only [PageFile.delete, Step.runOn_onSecond, Step.runOn_mapError, Step.runOn_bind,
        Step.runOn_get]
      cases ran : (Disk.removeFile file.path).runOn disk with
      | mk result after =>
        rw [ran] at removes
        have dropped := Drops.removed heap file result after present somewhere ran
        cases result with
        | ok _ => exact dropped
        | error fault =>
          cases removes
          cases fault <;> exact dropped

/-- Dropping a heap closes it, if there is one. -/
theorem Drops.getElem?_eq {result : Except StorageError Unit} (key : String)
    (drops : Drops table registry disk result next after) :
    next.heaps[key]? = if key = Text.fold table then none else registry.heaps[key]? := by
  cases drops with
  | missing absent =>
    split
    · rename_i same
      rw [same]
      exact absent
    · rfl
  | closed => exact getElem?_erase registry table key
  | removed => exact getElem?_erase registry table key

/-- A heap is dropped if it is there and nothing but its absence keeps its file from being removed. -/
theorem Drops.exists_of_ok {result : Except StorageError Unit}
    (drops : Drops table registry disk result next after) (done : result = .ok ()) :
    next = registry.erase table ∧ ∃ heap, registry.get? table = some heap ∧
      ∀ file fault, heap.backing = some file →
        ((Disk.removeFile file.path).runOn disk).1 = .error fault → fault = .missing := by
  cases drops with
  | missing => cases done
  | closed heap present nowhere =>
    refine ⟨rfl, heap, present, fun file fault somewhere => ?_⟩
    rw [nowhere] at somewhere
    cases somewhere
  | removed heap file outcome _ present somewhere ran =>
    refine ⟨rfl, heap, present, fun other fault same failed => ?_⟩
    cases somewhere.symm.trans same
    rw [ran] at failed
    cases failed
    cases fault with
    | missing => rfl
    | _ => cases done

/-- Dropping a heap fails if there is none, or as its file cannot be removed. -/
theorem Drops.cause_of_error {result : Except StorageError Unit} {error : StorageError}
    (drops : Drops table registry disk result next after) (failed : result = .error error) :
    next = registry ∧ registry.get? table = none ∨
      next = registry.erase table ∧ ∃ heap file fault, registry.get? table = some heap ∧
        heap.backing = some file ∧ ((Disk.removeFile file.path).runOn disk).1 = .error fault ∧
        fault ≠ .missing := by
  cases drops with
  | missing absent => exact .inl ⟨rfl, absent⟩
  | closed => cases failed
  | removed heap file outcome _ present somewhere ran =>
    cases outcome with
    | ok _ => cases failed
    | error fault =>
      refine .inr ⟨rfl, heap, file, fault, present, somewhere, by rw [ran], ?_⟩
      rintro rfl
      cases failed

/-- A step on the heap of a table, where there is one. -/
theorem runOn_onHeap {Answer : Type} (step : Step (HeapFile × Disk) StorageError Answer)
    (present : registry.get? table = some heap) :
    (onHeap table step).runOn (registry, disk) =
      ((step.runOn (heap, disk)).1, registry.insert table (step.runOn (heap, disk)).2.1,
        (step.runOn (heap, disk)).2.2) := by
  rw [onHeap]
  simp only [Step.runOn_bind, Step.runOn_get, present, Step.runOn_set, Step.runOn_ofExcept]

/-- What opening the heap of one table does. -/
inductive Restores (schema : Schema) (registry : HeapRegistry) (disk : Disk) :
    Except StorageError Unit → HeapRegistry → Disk → Prop where
  | inMemory (nowhere : registry.path? schema.table = none) :
      Restores schema registry disk (.ok ()) (registry.insert schema.table (.inMemory schema)) disk
  | failed (path : String) (error : StorageError) (after : Disk)
      (somewhere : registry.path? schema.table = some path)
      (opened : (HeapFile.openAt schema path).runOn disk = (.error error, after)) :
      Restores schema registry disk (.error error) registry after
  | opened (path : String) (heap : HeapFile) (after : Disk)
      (somewhere : registry.path? schema.table = some path)
      (opened : (HeapFile.openAt schema path).runOn disk = (.ok heap, after)) :
      Restores schema registry disk (.ok ()) (registry.insert schema.table heap) after

theorem restores (schema : Schema) (registry : HeapRegistry) (disk : Disk) :
    Restores schema registry disk ((restoreOne schema).runOn (registry, disk)).1
      ((restoreOne schema).runOn (registry, disk)).2.1
      ((restoreOne schema).runOn (registry, disk)).2.2 := by
  rw [restoreOne]
  simp only [Step.runOn_bind, Step.runOn_get]
  cases somewhere : registry.path? schema.table with
  | none => exact .inMemory somewhere
  | some path =>
    simp only [Step.runOn_bind, Step.runOn_onSecond]
    cases opened : (HeapFile.openAt schema path).runOn disk with
    | mk result after =>
      cases result with
      | error error => exact .failed path error after somewhere opened
      | ok heap => exact .opened path heap after somewhere opened

end RowStore.HeapRegistry
