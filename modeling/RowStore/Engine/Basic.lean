import RowStore.Catalog.Basic
import RowStore.Engine.Error
import RowStore.Heap.Registry
import RowStore.Settings

/-!
The engine: a catalog, the heap files of its tables and the settings they were opened with.
-/

namespace RowStore

/-- An open database. -/
structure Engine where
  settings : Settings
  catalog : Catalog
  heaps : HeapRegistry

namespace Engine

/-- A database without files. -/
def inMemory : Engine :=
  ⟨.inMemory, .inMemory, .empty none Settings.inMemory.dataFileExtension⟩

/-- Reads the catalog, and then opens the file of every table in it. -/
def openWith (settings : Settings) : Step Disk EngineError Engine := do
  let catalog ← Step.ofExcept ((Catalog.openAt (← get) settings.catalogPath?).mapError .catalog)
  let registry := HeapRegistry.empty settings.dataDirectory settings.dataFileExtension
  let (result, registry, disk) :=
    (HeapRegistry.restore catalog.schemas).runOn (registry, ← get)
  set disk
  let _ ← Step.ofExcept (result.mapError .storage)
  return ⟨settings, catalog, registry⟩

/-- A step on the catalog of an engine. -/
def onCatalog {Answer : Type} (step : Step (Catalog × Disk) CatalogError Answer) :
    Step (Engine × Disk) EngineError Answer :=
  ExceptT.mk fun (engine, disk) =>
    let (result, catalog, disk) := step.runOn (engine.catalog, disk)
    (result.mapError .catalog, { engine with catalog }, disk)

/-- A step on the heap files of an engine. -/
def onHeaps {Answer : Type} (step : Step (HeapRegistry × Disk) StorageError Answer) :
    Step (Engine × Disk) EngineError Answer :=
  ExceptT.mk fun (engine, disk) =>
    let (result, heaps, disk) := step.runOn (engine.heaps, disk)
    (result.mapError .storage, { engine with heaps }, disk)

/-- The schema and the heap file of a table. -/
def handle (engine : Engine) (table : String) : Except EngineError (Schema × HeapFile) :=
  match engine.catalog.get? table with
  | none => .error (.catalog (.tableMissing table))
  | some schema =>
    match engine.heaps.get? table with
    | none => .error (.storage (.heapMissing table))
    | some heap => .ok (schema, heap)

end Engine

end RowStore
