import RowStore.Proofs.Engine.Everywhere
import RowStore.Proofs.Engine.Interruption
import RowStore.Proofs.Engine.Listing

/-!
Updates and deletions that fail. All but a write that the disk refuses they find out before the first
page changes: an update whose new rows were all checked, and that has deleted the first old one, can fail
for nothing else any more.
-/

namespace RowStore.Engine

open HeapFile (Ordered exchangeAll deleteAll)

variable {engine : Engine} {target : Source} {columns : List String} {values : List Expr}
  {condition : Option Expr} {table : String} {heap : HeapFile} {error : EngineError} {disk : Disk}

/-- A failure of the work on the heap of a table. -/
theorem exists_of_mapped_error {Answer : Type} {result : Except StorageError Answer}
    {use : Answer → String}
    (failed : (result.map use).mapError EngineError.storage = .error error) :
    ∃ cause, result = .error cause ∧ error = .storage cause := by
  cases result with
  | ok answer => cases failed
  | error cause =>
    cases failed
    exact ⟨cause, rfl, rfl⟩

/-- Once its new rows were all checked, an update fails for a refused write only. -/
theorem refused_of_update {revisions : List (RowId × Row)} (ordered : engine.Each Ordered)
    (revised : engine.revision target columns values condition = .ok (table, heap, revisions))
    (failed : ((update target columns values condition).runOn (engine, disk)).1 = .error error) :
    error = .storage (.disk .writesRefused) := by
  obtain ⟨schema, _, _, _, handled, _⟩ := revision_eq_ok revised
  rw [runOn_update disk revised] at failed
  obtain ⟨cause, ended, rfl⟩ := exists_of_mapped_error failed
  have fails := (HeapFile.sustains_exchangeAll (revisable_of_revision revised).fit (heap, disk)
    ⟨ordered.handle handled, rfl⟩).2
  rw [fails cause ended]

/-- Once its rows were all found, a deletion fails for a refused write only. -/
theorem refused_of_delete {found : List (RowId × Row)} (ordered : engine.Each Ordered)
    (selected : engine.deletion target condition = .ok (table, heap, found))
    (failed : ((delete target condition).runOn (engine, disk)).1 = .error error) :
    error = .storage (.disk .writesRefused) := by
  obtain ⟨schema, _, handled, _⟩ := deletion_eq_ok selected
  rw [runOn_delete disk selected] at failed
  obtain ⟨cause, ended, rfl⟩ := exists_of_mapped_error failed
  have fails := (HeapFile.sustains_deleteAll heap.schema found (heap, disk)
    ⟨ordered.handle handled, rfl⟩).2
  rw [fails cause ended]

/-- A moment of an update: some rows have been exchanged, the next one has just been deleted, and its new
form is still to be stored, as the rest of the rows are to be exchanged. -/
inductive MidUpdate (engine : Engine) (disk : Disk) (target : Source) (columns : List String)
    (values : List Expr) (condition : Option Expr) :
    (table : String) → (row : Row) → (rest : List (RowId × Row)) → HeapFile × Disk → Prop where
  | deleted (table : String) (heap : HeapFile) (done : List (RowId × Row)) (id : RowId) (row : Row)
      (rest : List (RowId × Row)) (middle reached : HeapFile × Disk)
      (revised : engine.revision target columns values condition =
        .ok (table, heap, done ++ (id, row) :: rest))
      (exchanged : (exchangeAll done).runOn (heap, disk) = (.ok (), middle))
      (deleted : (HeapFile.delete id).runOn middle = (.ok true, reached)) :
      MidUpdate engine disk target columns values condition table row rest reached

/-- What an update has yet to do at such a moment. -/
def resume (row : Row) (rest : List (RowId × Row)) : Step (HeapFile × Disk) StorageError Unit := do
  discard (HeapFile.insert row)
  exchangeAll rest

theorem exchangeAll_cons (id : RowId) (row : Row) (rest : List (RowId × Row)) :
    exchangeAll ((id, row) :: rest) = (do
      discard (HeapFile.delete id)
      resume row rest) :=
  bind_assoc (discard (HeapFile.delete id)) (fun _ => discard (HeapFile.insert row))
    fun _ => exchangeAll rest

theorem MidUpdate.runOn_update {row : Row} {rest : List (RowId × Row)} {reached : HeapFile × Disk}
    (mid : MidUpdate engine disk target columns values condition table row rest reached) :
    ∃ count, (update target columns values condition).runOn (engine, disk) =
      ((((resume row rest).runOn reached).1.map fun _ => Report.countMessage "Updated" count).mapError
          .storage,
        engine.withHeap table ((resume row rest).runOn reached).2.1,
        ((resume row rest).runOn reached).2.2) := by
  cases mid with
  | deleted heap done id _ _ middle _ revised exchanged deleted =>
    have whole : (exchangeAll (done ++ (id, row) :: rest)).runOn (heap, disk) =
        (resume row rest).runOn reached := by
      rw [exchangeAll, Step.runOn_forM_append, ← exchangeAll, ← exchangeAll, exchanged]
      change (exchangeAll ((id, row) :: rest)).runOn middle = _
      rw [exchangeAll_cons, Step.runOn_bind, Step.runOn_discard, deleted]
      rfl
    refine ⟨(done ++ (id, row) :: rest).length, ?_⟩
    rw [Engine.runOn_update disk revised, whole]

/-- On every engine that is reached, an update or a deletion that fails for anything but a refused write
leaves the engine and the disk exactly as they were. An update that has deleted a row goes on with the new
form of that row and the rest of the rows, and nothing but a refused write can end it before it is done. -/
theorem rejects_without_trace (opened : Opened engine) (attempts : List Attempt) (disk : Disk) :
    (∀ target columns values condition error,
      ((execute (.update target columns values condition)).runOn (engine.reach attempts, disk)).1 =
        .error error → error ≠ .storage (.disk .writesRefused) →
      ((execute (.update target columns values condition)).runOn (engine.reach attempts, disk)).2 =
        (engine.reach attempts, disk)) ∧
    (∀ target condition error,
      ((execute (.delete target condition)).runOn (engine.reach attempts, disk)).1 = .error error →
      error ≠ .storage (.disk .writesRefused) →
      ((execute (.delete target condition)).runOn (engine.reach attempts, disk)).2 =
        (engine.reach attempts, disk)) ∧
    ∀ target columns values condition table row rest reached,
      MidUpdate (engine.reach attempts) disk target columns values condition table row rest reached →
      (∃ count, (execute (.update target columns values condition)).runOn (engine.reach attempts, disk) =
        ((((resume row rest).runOn reached).1.map fun _ => Report.countMessage "Updated" count).mapError
            .storage,
          (engine.reach attempts).withHeap table ((resume row rest).runOn reached).2.1,
          ((resume row rest).runOn reached).2.2)) ∧
      ∀ error, ((resume row rest).runOn reached).1 = .error error → error = .disk .writesRefused := by
  have ordered := Each.reach HeapFile.lasting_ordered opened.ordered attempts
  generalize engine.reach attempts = engine at ordered
  refine ⟨?update, ?delete, ?mid⟩
  case update =>
    intro target columns values condition error failed other
    rw [execute] at failed ⊢
    cases revised : engine.revision target columns values condition with
    | error cause => rw [runOn_update_rejected disk revised]
    | ok found => exact absurd (refused_of_update ordered revised failed) other
  case delete =>
    intro target condition error failed other
    rw [execute] at failed ⊢
    cases selected : engine.deletion target condition with
    | error cause => rw [runOn_delete_rejected disk selected]
    | ok found => exact absurd (refused_of_delete ordered selected failed) other
  case mid =>
    intro target columns values condition table row rest reached mid
    obtain ⟨count, goes⟩ := mid.runOn_update
    refine ⟨⟨count, goes⟩, fun error ended => ?_⟩
    have failed : ((update target columns values condition).runOn (engine, disk)).1 =
        .error (.storage error) := by
      rw [goes, ended]
      rfl
    cases mid with
    | deleted heap done id _ _ middle _ revised =>
      cases refused_of_update ordered revised failed
      rfl

/-- People whose number is their name, which can be compared in no row. -/
def confused : Expr := .compare .eq (.column none "id") (.column none "name")

theorem revision_confused (lists : engine.Lists people [[.int 1, .text "Ann"]]) :
    engine.revision (.table "people" none) ["name"] [.literal (.string "Bob")] (some confused) =
      .error (.eval (.mismatch ⟨.eq, .int, .text⟩)) := by
  obtain ⟨heap, handled, _, _, readable, perm⟩ := lists
  have assigned : assignments people ["name"] [.literal (.string "Bob")] = .ok [(1, .text "Bob")] := by
    with_unfolding_all rfl
  have compiled : engine.compileWhere people (some confused) =
      .ok (.compare .eq 0 (.column 1)) := by
    rw [compileWhere, confused, compile]
    with_unfolding_all rfl
  obtain ⟨entry, rows, held⟩ := List.map_eq_singleton_iff.mp (List.perm_singleton.mp perm)
  have scanned := readable.scanWhere_eq EngineError.storage fun row =>
    ((Predicate.compare .eq 0 (.column 1)).test row).mapError .eval
  rw [rows, Outcome.mapM_cons, held] at scanned
  have selected : engine.candidates people heap (some confused) =
      .error (.eval (.mismatch ⟨.eq, .int, .text⟩)) := by
    rw [candidates, compiled]
    exact scanned
  have named : engine.handle "people" = .ok (people, heap) := handled
  simp only [revision, Source.targetTable, named, assigned, selected, bind, Except.bind]

/-- A condition that compares a number with a text rejects an update, and no person is renamed. -/
theorem rejects_without_trace_household : Opened inMemory ∧
    ((execute (.update (.table "people" none) ["name"] [.literal (.string "Bob")] (some confused))).runOn
      (inMemory.reach household, .empty)) =
      (.error (.eval (.mismatch ⟨.eq, .int, .text⟩)), inMemory.reach household, .empty) := by
  have failed := congrArg Prod.fst (runOn_update_rejected .empty (revision_confused lists_household.1))
  refine ⟨.inMemory, Prod.ext failed ?_⟩
  exact (rejects_without_trace .inMemory household .empty).1 _ _ _ _ _ failed (by simp)

end RowStore.Engine
