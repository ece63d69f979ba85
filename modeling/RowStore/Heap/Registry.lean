import RowStore.Heap.Basic

/-!
The open heap files by the folded names of their tables. The file of a table stands in the data
directory under its folded name; without a directory all heaps live in memory.
-/

namespace RowStore

/-- The open heap files, and where their files are. -/
structure HeapRegistry where
  directory : Option String
  extension : String
  heaps : Std.TreeMap String HeapFile

namespace HeapRegistry

/-- A registry without open files. -/
def empty (directory : Option String) (extension : String) : HeapRegistry := ⟨directory, extension, {}⟩

/-- The path of a table's file. -/
def path? (registry : HeapRegistry) (table : String) : Option String :=
  registry.directory.map (Path.join · (Text.fold table ++ "." ++ registry.extension))

def get? (registry : HeapRegistry) (table : String) : Option HeapFile :=
  registry.heaps[Text.fold table]?

def contains (registry : HeapRegistry) (table : String) : Bool :=
  registry.heaps.contains (Text.fold table)

def size (registry : HeapRegistry) : Nat := registry.heaps.size

/-- The registry with the heap of a table entered, in place of the one it had. -/
def insert (registry : HeapRegistry) (table : String) (heap : HeapFile) : HeapRegistry :=
  { registry with heaps := registry.heaps.insert (Text.fold table) heap }

/-- The registry without the heap of a table. -/
def erase (registry : HeapRegistry) (table : String) : HeapRegistry :=
  { registry with heaps := registry.heaps.erase (Text.fold table) }

/-- Opens the file of a table that exists. -/
def restoreOne (schema : Schema) : Step (HeapRegistry × Disk) StorageError Unit := do
  let registry := (← get).1
  let heap ←
    match registry.path? schema.table with
    | some path => (HeapFile.openAt schema path).onSecond
    | none => pure (HeapFile.inMemory schema)
  modify fun (registry, disk) => (registry.insert schema.table heap, disk)

/-- Opens the files of tables up to the first that cannot be opened, and answers their number. -/
def restore (schemas : List Schema) : Step (HeapRegistry × Disk) StorageError Nat := do
  schemas.forM restoreOne
  return schemas.length

/-- Creates the heap of a new table. -/
def create (schema : Schema) : Step (HeapRegistry × Disk) StorageError HeapFile := do
  let registry := (← get).1
  if registry.contains schema.table then throw (.heapExists schema.table)
  let heap ←
    match registry.path? schema.table with
    | some path => (HeapFile.createAt schema path).onSecond
    | none => pure (HeapFile.inMemory schema)
  modify fun (registry, disk) => (registry.insert schema.table heap, disk)
  return heap

/-- Closes the heap of a table and removes its file. The heap is closed even if its file cannot be
removed. -/
def drop (table : String) : Step (HeapRegistry × Disk) StorageError Unit := do
  let (registry, disk) ← get
  match registry.get? table with
  | none => throw (.heapMissing table)
  | some heap =>
    let (result, _, disk) := HeapFile.destroy.runOn (heap, disk)
    set (registry.erase table, disk)
    Step.ofExcept result

/-- Closes all heaps. -/
def closeAll (registry : HeapRegistry) : HeapRegistry := { registry with heaps := {} }

/-- A step on the heap of a table, which is entered again as the step leaves it. -/
def onHeap {Answer : Type} (table : String) (step : Step (HeapFile × Disk) StorageError Answer) :
    Step (HeapRegistry × Disk) StorageError Answer := do
  let (registry, disk) ← get
  match registry.get? table with
  | none => throw (.heapMissing table)
  | some heap =>
    let (result, heap, disk) := step.runOn (heap, disk)
    set (registry.insert table heap, disk)
    Step.ofExcept result

end HeapRegistry

end RowStore
