import RowStore.Proofs.Engine.Registries
import RowStore.Proofs.Heap.Lasting

/-!
What holds of every open heap of an engine. A lasting property that the heaps have when the engine is
opened they have for good, whatever statements are run and whatever becomes of the disk.
-/

namespace RowStore

open HeapFile (Lasting)
open Step (Sustains)

variable {holds : HeapFile → Prop} {table : String} {heap : HeapFile}

namespace HeapRegistry

variable {registry next : HeapRegistry} {disk after : Disk}

/-- Every open heap has a property. -/
def Each (holds : HeapFile → Prop) (registry : HeapRegistry) : Prop :=
  ∀ (key : String) (heap : HeapFile), registry.heaps[key]? = some heap → holds heap

theorem each_empty (directory : Option String) (extension : String) :
    (empty directory extension).Each holds := by
  intro key heap never
  simp [empty] at never

theorem Each.insert (each : registry.Each holds) (held : holds heap) :
    (registry.insert table heap).Each holds := by
  intro key found present
  rw [getElem?_insert] at present
  split at present
  · cases present
    exact held
  · exact each key found present

/-- A heap that is dropped is no open heap any more. -/
theorem Each.drops {result : Except StorageError Unit} (each : registry.Each holds)
    (drops : Drops table registry disk result next after) : next.Each holds := by
  intro key found present
  rw [drops.getElem?_eq] at present
  split at present
  · cases present
  · exact each key found present

theorem Each.creates {schema : Schema} {result : Except StorageError HeapFile}
    (lasting : Lasting holds) (each : registry.Each holds)
    (creates : Creates schema registry disk result next after) : next.Each holds := by
  cases creates with
  | known => exact each
  | inMemory => exact each.insert (lasting.empty _ _)
  | failed => exact each
  | created => exact each.insert (lasting.empty _ _)

/-- The heaps that are opened from files have their pages in order, whatever is in the files. -/
theorem sustains_restoreOne (schema : Schema) :
    Sustains (fun state : HeapRegistry × Disk => state.1.Each HeapFile.Ordered) (fun _ => True)
      (restoreOne schema) := by
  rintro ⟨registry, disk⟩ each
  refine ⟨?_, fun _ _ => trivial⟩
  have restores := restores schema registry disk
  generalize (restoreOne schema).runOn (registry, disk) = outcome at restores ⊢
  obtain ⟨result, next, after⟩ := outcome
  cases restores with
  | inMemory => exact each.insert (HeapFile.sound_empty schema none).ordered
  | failed => exact each
  | opened path heap _ somewhere opened => exact each.insert (HeapFile.ordered_of_openAt opened)

end HeapRegistry

namespace Engine

variable {engine : Engine}

/-- Every open heap of an engine has a property. -/
def Each (holds : HeapFile → Prop) (engine : Engine) : Prop := engine.heaps.Each holds

theorem Each.handle {schema : Schema} (each : engine.Each holds)
    (handled : engine.handle table = .ok (schema, heap)) : holds heap :=
  each _ heap ((handle_eq_ok_iff _ _ _ _).mp handled).2

/-- An engine is opened with the pages of all heaps in order, whatever is on the disk. -/
theorem Opened.ordered (opened : Opened engine) : engine.Each HeapFile.Ordered := by
  cases opened with
  | inMemory => exact HeapRegistry.each_empty none _
  | onDisk settings disk _ after ran =>
    obtain ⟨catalog, count, heaps, _, restored, rfl⟩ := openWith_eq_ok ran
    have sustains : Sustains (fun state : HeapRegistry × Disk => state.1.Each HeapFile.Ordered)
        (fun _ => True) (HeapRegistry.restore catalog.schemas) :=
      .bind (.forM _ fun schema _ => HeapRegistry.sustains_restoreOne schema) fun _ => .pure _
    have held := sustains (.empty settings.dataDirectory settings.dataFileExtension, disk)
      (HeapRegistry.each_empty _ _)
    rw [restored] at held
    exact held.1

/-- Steps after which every open heap has a property that every heap had before. -/
abbrev Spreads {Answer : Type} (holds : HeapFile → Prop) (step : Effect Answer) : Prop :=
  Sustains (fun state : Engine × Disk => state.1.Each holds) (fun _ => True) step

theorem spreads_onHeap {Answer : Type} {step : Step (HeapFile × Disk) StorageError Answer}
    (sustains : Sustains (fun state => holds state.1) (fun _ => True) step) (table : String) :
    Spreads holds (onHeap table step) := by
  rintro ⟨engine, disk⟩ each
  refine ⟨?_, fun _ _ => trivial⟩
  cases present : engine.heaps.get? table with
  | none =>
    rw [onHeap, runOn_onHeaps, HeapRegistry.onHeap]
    simp only [Step.runOn_bind, Step.runOn_get, present, Step.runOn_throw]
    exact each
  | some heap =>
    rw [runOn_onHeap _ disk present]
    have held := sustains (heap, disk) (each _ heap present)
    exact HeapRegistry.Each.insert each held.1

theorem spreads_dropTable (table : String) : Spreads holds (dropTable table) := by
  rintro ⟨engine, disk⟩ each
  refine ⟨?_, fun _ _ => trivial⟩
  have drops := dropsTable table engine disk
  generalize (dropTable table).runOn (engine, disk) = outcome at drops ⊢
  obtain ⟨result, next, after⟩ := outcome
  cases drops with
  | missing => exact each
  | failed schema error heaps _ present drops => exact HeapRegistry.Each.drops each drops
  | dropped schema heaps middle _ present drops => exact HeapRegistry.Each.drops each drops

section

variable (lasting : Lasting holds)

include lasting

theorem spreads_insert (table : String) (rows : List (List Expr)) :
    Spreads holds (insert table rows) := by
  unfold insert
  refine .bind .get fun state => .bind (.ofExcept fun _ _ => trivial) fun found => ?_
  refine .bind (.ofExcept fun _ _ => trivial) fun built => .bind (spreads_onHeap ?_ table) fun _ => .pure _
  exact .forM built fun row _ => (lasting.insert row).discard

theorem spreads_delete (target : Source) (condition : Option Expr) :
    Spreads holds (delete target condition) := by
  unfold delete
  refine .bind .get fun state => .bind (.ofExcept fun _ _ => trivial) fun table => ?_
  refine .bind (.ofExcept fun _ _ => trivial) fun found => ?_
  refine .bind (.ofExcept fun _ _ => trivial) fun found => .bind (spreads_onHeap ?_ table) fun _ => .pure _
  exact .mapM found fun entry _ => lasting.delete entry.1

theorem spreads_update (target : Source) (columns : List String) (values : List Expr)
    (condition : Option Expr) : Spreads holds (update target columns values condition) := by
  unfold update
  refine .bind .get fun state => .bind (.ofExcept fun _ _ => trivial) fun table => ?_
  refine .bind (.ofExcept fun _ _ => trivial) fun found => ?_
  refine .bind (.ofExcept fun _ _ => trivial) fun set => ?_
  refine .bind (.ofExcept fun _ _ => trivial) fun found => ?_
  refine .bind (.ofExcept fun _ _ => trivial) fun revisions => ?_
  refine .bind (spreads_onHeap ?_ table) fun _ => .pure _
  exact .forM revisions fun entry _ =>
    (lasting.delete entry.1).discard.bind fun _ => (lasting.insert entry.2).discard

theorem spreads_createTable (table : String) (specs : List ColumnSpec) :
    Spreads holds (createTable table specs) := by
  rintro ⟨engine, disk⟩ each
  refine ⟨?_, fun _ _ => trivial⟩
  have creates := createsTable table specs engine disk
  generalize (createTable table specs).runOn (engine, disk) = outcome at creates ⊢
  obtain ⟨result, next, after⟩ := outcome
  cases creates with
  | rejected => exact each
  | created schema middle heap heaps _ named built accepted absent persists creates =>
    exact HeapRegistry.Each.creates lasting each creates
  | takenBack schema middle error heaps between _ named accepted absent persists creates =>
    exact HeapRegistry.Each.creates lasting each creates

theorem spreads_execute (statement : Statement) : Spreads holds (execute statement) := by
  cases statement with
  | createTable table specs => exact spreads_createTable lasting table specs
  | dropTable table => exact spreads_dropTable table
  | insert table rows => exact spreads_insert lasting table rows
  | select query => exact .bind .get fun state => .ofExcept fun _ _ => trivial
  | update target columns values condition => exact spreads_update lasting target columns values condition
  | delete target condition => exact spreads_delete lasting target condition
  | other kind => exact fun state each => ⟨each, fun _ _ => trivial⟩

/-- What holds of all heaps at first holds of all heaps for good. -/
theorem Each.reach (each : engine.Each holds) (attempts : List Attempt) :
    (engine.reach attempts).Each holds := by
  induction attempts generalizing engine with
  | nil => exact each
  | cons attempt rest ih =>
    exact ih (spreads_execute lasting attempt.statement (engine, attempt.disk) each).1

end

end Engine

end RowStore
