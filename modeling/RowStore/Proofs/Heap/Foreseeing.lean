import RowStore.Proofs.Heap.Placing
import RowStore.Proofs.Row.Shape

/-!
Foreseeing an insertion. Whether a row is taken is known before any page is touched: the check of a row
looks at nothing but its bytes, and every heap that there can be has a place for the bytes it lets pass.
-/

namespace RowStore

namespace HeapFile

variable {heap : HeapFile} {bytes : List UInt8} {row : Row} {disk : Disk} {error : StorageError}

theorem checkInsertable_eq (heap : HeapFile) (row : Row) :
    heap.checkInsertable row = (heap.encode row).map fun _ => () := by
  rw [checkInsertable]
  cases heap.encode row <;> rfl

theorem checkInsertable_eq_ok_iff (heap : HeapFile) (row : Row) :
    heap.checkInsertable row = .ok () ↔
      heap.schema.Admits row ∧ row.width heap.schema.columns.length ≤ maxRowSize := by
  rw [checkInsertable_eq, ← Row.check_eq_ok_iff_admits, ← exists_encode_iff]
  cases heap.encode row <;> simp [Except.map]

/-- Bytes of a row that are found at an address are read as the row. -/
theorem get?_of_bytesAt? {id : RowId} (found : heap.bytesAt? id = some bytes)
    (encoded : heap.encode row = .ok bytes) : heap.get? id = .ok (some row) := by
  rw [get?, show (heap.pages[id.page]?.bind fun page => page.get? id.slot) = some bytes from found]
  simp only [decode_of_encode encoded]
  rfl

/-- The check of a row tells what becomes of it: it passes exactly the rows that follow the schema and
whose bytes fit an empty page, it fails as the insertion does, and what it passes is stored and read
back. -/
structure Foreseen (heap : HeapFile) (disk : Disk) (row : Row) : Prop where
  foretold : heap.checkInsertable row = ((insert row).runOn (heap, disk)).1.map fun _ => ()
  passes_iff : heap.checkInsertable row = .ok () ↔
    heap.schema.Admits row ∧ row.width heap.schema.columns.length ≤ 4084
  rejected : ∀ error, heap.checkInsertable row = .error error →
    (insert row).runOn (heap, disk) = (.error error, heap, disk)
  taken : heap.checkInsertable row = .ok () → ∃ id next after,
    (insert row).runOn (heap, disk) = (.ok id, next, after) ∧ next.get? id = .ok (some row)

theorem Ordered.foreseen (ordered : heap.Ordered) (takes : ¬ Refused heap disk) (row : Row) :
    Foreseen heap disk row := by
  have passes_iff := heap.checkInsertable_eq_ok_iff row
  have inserts := ordered.inserts disk row
  generalize ran : (HeapFile.insert row).runOn (heap, disk) = outcome at inserts
  obtain ⟨answer, next, after⟩ := outcome
  cases inserts with
  | rejected cause rejection =>
    have fails : next.checkInsertable row = .error cause := by
      rw [checkInsertable_eq, rejection]
      rfl
    refine ⟨?_, passes_iff, fun error failed => ?_, fun passed => ?_⟩
    · rw [ran]
      exact fails
    · cases fails.symm.trans failed
      exact ran
    · cases fails.symm.trans passed
  | refused bytes encoded refusal => exact absurd refusal takes
  | stored bytes change encoded placed taken =>
    have passes : heap.checkInsertable row = .ok () := by
      rw [checkInsertable_eq, encoded]
      rfl
    refine ⟨?_, passes_iff, fun error failed => ?_, fun _ => ⟨_, _, _, ran, ?_⟩⟩
    · rw [ran]
      exact passes
    · cases passes.symm.trans failed
    · refine get?_of_bytesAt? (placed.bytesAt?_new ordered) ?_
      rw [encode_congr placed.replaced.schema_eq, encoded]

/-- In every heap that there can be, whose disk takes the next write if it has one, the check foretells
the insertion of every row. -/
theorem foresees_insertion (reached : Reached heap) (takes : ¬ Refused heap disk) (row : Row) :
    Foreseen heap disk row := reached.ordered.foreseen takes row

/-- A row that takes all of an empty page, stored beside another one of its size. -/
theorem foresees_insertion_full_page :
    let schema : Schema := ⟨"t", [.ofType "a" .text]⟩
    ∃ content : String,
      let row : Row := [.text content]
      let first := ((insert row).runOn (inMemory schema, .empty)).2
      row.width 1 = 4084 ∧ Reached first.1 ∧ ¬ Refused first.1 first.2 ∧
        first.1.checkInsertable row = .ok () ∧
        ∃ id next after, (insert row).runOn first = (.ok id, next, after) ∧
          next.get? id = .ok (some row) := by
  intro schema
  obtain ⟨content, size⟩ : ∃ content : String, content.utf8ByteSize = 4075 :=
    ⟨_, utf8ByteSize_replicate 4075⟩
  refine ⟨content, ?_⟩
  intro row first
  have width : row.width 1 = 4084 := by rw [width_text, size]
  have empty : (inMemory schema).Sound := sound_empty schema none
  have reached : Reached first.1 :=
    .insert (.fresh schema (inMemory schema) .empty (.inMemory .empty)) row .empty
  have same : first.1.schema = schema := (empty.ordered.insert .empty row).1.schema_eq
  have takes : ¬ Refused first.1 first.2 := by
    rintro ⟨_, refused⟩
    rw [(empty.inserts .empty row).refuses_eq] at refused
    cases refused
  have foreseen := foresees_insertion reached takes row
  have passes : first.1.checkInsertable row = .ok () := by
    rw [foreseen.passes_iff, same]
    exact ⟨.cons rfl .nil, width.le⟩
  exact ⟨width, reached, takes, passes, foreseen.taken passes⟩

end HeapFile

end RowStore
