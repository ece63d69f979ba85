import RowStore.Proofs.Heap.Registry
import RowStore.Proofs.Steps

/-!
Heaps that are opened one after another. Where the file of every table can be opened, all of them are,
and the disk stays as it is.
-/

namespace RowStore.HeapRegistry

variable {registry : HeapRegistry} {disk : Disk}

/-- The file of a table is there and holds a heap. -/
def CanOpen (registry : HeapRegistry) (disk : Disk) (schema : Schema) (heap : HeapFile) : Prop :=
  ∃ path, registry.path? schema.table = some path ∧
    (HeapFile.openAt schema path).runOn disk = (.ok heap, disk)

/-- The registry with the heaps of tables entered. -/
def enter (registry : HeapRegistry) (heaps : String → HeapFile) (schemas : List Schema) :
    HeapRegistry :=
  schemas.foldl (fun registry schema => registry.insert schema.table (heaps (Text.fold schema.table)))
    registry

theorem runOn_restoreOne {schema : Schema} {heap : HeapFile}
    (canOpen : registry.CanOpen disk schema heap) :
    (restoreOne schema).runOn (registry, disk) = (.ok (), registry.insert schema.table heap, disk) := by
  obtain ⟨path, somewhere, opened⟩ := canOpen
  rw [restoreOne]
  simp only [Step.runOn_bind, Step.runOn_get, somewhere, Step.runOn_onSecond, opened,
    Step.runOn_modify]

theorem runOn_restore (heaps : String → HeapFile) (schemas : List Schema)
    (canOpen : ∀ schema ∈ schemas, registry.CanOpen disk schema (heaps (Text.fold schema.table))) :
    (restore schemas).runOn (registry, disk) =
      (.ok schemas.length, registry.enter heaps schemas, disk) := by
  have opened : (schemas.forM restoreOne).runOn (registry, disk) =
      (.ok (), registry.enter heaps schemas, disk) := by
    induction schemas generalizing registry with
    | nil => rfl
    | cons schema rest ih =>
      rw [Step.runOn_forM_cons, runOn_restoreOne (canOpen schema List.mem_cons_self)]
      exact ih fun other member => canOpen other (List.mem_cons_of_mem _ member)
  rw [restore]
  simp only [Step.runOn_bind, opened, Step.runOn_pure]

theorem getElem?_enter (registry : HeapRegistry) (heaps : String → HeapFile) (schemas : List Schema)
    (key : String) :
    (registry.enter heaps schemas).heaps[key]? =
      if key ∈ schemas.map (fun schema => Text.fold schema.table) then some (heaps key)
      else registry.heaps[key]? := by
  induction schemas generalizing registry with
  | nil => simp [enter]
  | cons schema rest ih =>
    rw [enter, List.foldl_cons, ← enter, ih, getElem?_insert, List.map_cons]
    simp only [List.mem_cons]
    by_cases later : key ∈ rest.map (fun schema => Text.fold schema.table)
    · rw [if_pos later, if_pos (.inr later)]
    · rw [if_neg later]
      by_cases same : key = Text.fold schema.table
      · rw [if_pos same, if_pos (.inl same), same]
      · rw [if_neg same, if_neg (not_or.mpr ⟨same, later⟩)]

theorem enter_directory (registry : HeapRegistry) (heaps : String → HeapFile) (schemas : List Schema) :
    (registry.enter heaps schemas).directory = registry.directory ∧
      (registry.enter heaps schemas).extension = registry.extension := by
  induction schemas generalizing registry with
  | nil => exact ⟨rfl, rfl⟩
  | cons schema rest ih => exact ih _

end RowStore.HeapRegistry
