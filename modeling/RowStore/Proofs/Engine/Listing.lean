import RowStore.Proofs.Engine.Registries
import RowStore.Proofs.Heap.Storing
import RowStore.Proofs.Reference.Queries

/-!
Tables of which every row can be read. What is inserted into such a table is found by the next scan, and
no other table is touched.
-/

namespace RowStore.Engine

variable {engine : Engine} {schema : Schema} {stored rows : List Row} {exprs : List (List Expr)}
  {disk : Disk}

/-- A table of the given schema with the given rows, all of which can be read. -/
def Lists (engine : Engine) (schema : Schema) (rows : List Row) : Prop :=
  ∃ heap, engine.handle schema.table = .ok (schema, heap) ∧ heap.Sound ∧ heap.Carries ⟨schema, rows⟩

theorem lists_nil (handled : engine.handle schema.table = .ok (schema, .inMemory schema)) :
    engine.Lists schema [] := by
  refine ⟨_, handled, HeapFile.sound_empty schema none, rfl, ?readable, ?rows⟩
  case readable =>
    intro id bytes found
    simp [HeapFile.bytesAt?, HeapFile.inMemory] at found
  case rows => exact .refl _

/-- A scan of the whole table finds its rows, in some order. -/
theorem Lists.scanTable (lists : engine.Lists schema rows) (label : Option String) :
    ∃ found, found.Perm rows ∧
      engine.scanTable schema.table label (fun _ => .ok .always) =
        .ok ((⟨schema, found⟩ : Relation).labelled label) := by
  obtain ⟨heap, handled, _, same, readable, perm⟩ := lists
  have tested : (heap.rows.mapM fun entry =>
      ((Predicate.always.test entry.2).mapError EngineError.eval)) = .ok (heap.rows.map fun _ => true) := by
    refine (Outcome.mapM_eq_ok_iff _ _ _).mpr ?_
    exact List.forall₂_map_right_iff.mpr (List.forall₂_same.mpr fun _ _ => rfl)
  refine ⟨heap.rows.map Prod.snd, perm, ?_⟩
  have every : (heap.rows.filter fun entry =>
      ((Predicate.always.test entry.2).mapError EngineError.eval).toOption.getD false) = heap.rows :=
    List.filter_eq_self.mpr fun _ _ => rfl
  rw [Engine.scanTable, handled]
  simp only [bind, Except.bind]
  rw [readable.scanWhere_eq, tested, every]
  cases label <;> rfl

/-- The heap of one table may be exchanged without the rows of another being touched. -/
theorem Lists.withHeap {table : String} {heap : HeapFile} (lists : engine.Lists schema rows)
    (elsewhere : Text.fold schema.table ≠ Text.fold table) :
    (engine.withHeap table heap).Lists schema rows := by
  obtain ⟨own, handled, rest⟩ := lists
  obtain ⟨known, present⟩ := (handle_eq_ok_iff _ _ _ _).mp handled
  refine ⟨own, (handle_eq_ok_iff _ _ _ _).mpr ⟨known, ?_⟩, rest⟩
  rw [Engine.withHeap, HeapRegistry.get?_insert, if_neg elsewhere]
  exact present

/-- A single row is found as it is. -/
theorem Lists.resolve_singleton {row : Row} (lists : engine.Lists schema [row]) (label : Option String) :
    engine.resolve (.table schema.table label) = .ok ((⟨schema, [row]⟩ : Relation).labelled label) := by
  obtain ⟨found, perm, scanned⟩ := lists.scanTable label
  rw [List.perm_singleton.mp perm] at scanned
  rw [resolve]
  exact scanned

/-- Rows that are inserted stand beside those that were there, and the other tables are as they were. -/
theorem Lists.insert (lists : engine.Lists schema stored)
    (converted : exprs.mapM (buildRow schema) = .ok rows)
    (fits : ∀ row ∈ rows, ∃ bytes, row.encode schema = .ok bytes ∧ bytes.length ≤ maxRowSize)
    (takes : ∀ write, disk.refuses write = false) :
    (engine.afterAttempt ⟨.insert schema.table exprs, disk⟩).Lists schema (rows ++ stored) ∧
      ∀ other others, Text.fold other.table ≠ Text.fold schema.table → engine.Lists other others →
        (engine.afterAttempt ⟨.insert schema.table exprs, disk⟩).Lists other others := by
  obtain ⟨heap, handled, sound, carries⟩ := lists
  have same : heap.schema = schema := carries.schema_eq
  obtain ⟨known, present⟩ := (handle_eq_ok_iff _ _ _ _).mp handled
  have own : ∀ other, engine.heaps.get? schema.table = some other → other.Sound := by
    intro other found
    cases present.symm.trans found
    exact sound
  have inserts := insertsRows exprs disk own
  rw [afterAttempt, execute]
  generalize (Engine.insert schema.table exprs).runOn (engine, disk) = outcome at inserts ⊢
  obtain ⟨result, next, after⟩ := outcome
  cases inserts with
  | unknown error failed => cases handled.symm.trans failed
  | rejected other found error handledAgain failed =>
    cases handled.symm.trans handledAgain
    cases converted.symm.trans failed
  | worked other found built answer grown after handledAgain convertedAgain stores =>
    cases handled.symm.trans handledAgain
    cases converted.symm.trans convertedAgain
    have succeeded : answer = .ok () := by
      rw [stores.result_eq_ok_iff takes]
      intro row member
      obtain ⟨bytes, encoded⟩ := fits row member
      rw [← same] at encoded
      exact ⟨bytes, (HeapFile.encode_eq_ok_iff heap row bytes).mpr encoded⟩
    refine ⟨⟨grown, (handle_eq_ok_iff _ _ _ _).mpr ⟨known, ?_⟩, stores.calls.sound sound,
      stores.calls.schema_eq.trans same, stores.calls.readable sound carries.readable,
      (stores.rows_perm sound succeeded).trans (carries.rows_perm.append_left rows)⟩, ?_⟩
    · exact (HeapRegistry.get?_insert _ _ _ _).trans (if_pos rfl)
    · exact fun other others elsewhere lists => lists.withHeap elsewhere

def people : Schema := ⟨"people", [.ofType "id" .int, .ofType "name" .text]⟩

def pets : Schema := ⟨"pets", [.ofType "owner" .int, .ofType "name" .text]⟩

def ann : List Expr := [.literal (.number "1"), .literal (.string "Ann")]

def rex : List Expr := [.literal (.number "2"), .literal (.string "Rex")]

/-- A database in memory of one person and one pet, which has another owner. -/
def household : List Attempt :=
  [⟨.createTable "people" [⟨"id", "INT", none⟩, ⟨"name", "TEXT", none⟩], .empty⟩,
    ⟨.createTable "pets" [⟨"owner", "INT", none⟩, ⟨"name", "TEXT", none⟩], .empty⟩,
    ⟨.insert "people" [ann], .empty⟩, ⟨.insert "pets" [rex], .empty⟩]

theorem lists_household :
    (inMemory.reach household).Lists people [[.int 1, .text "Ann"]] ∧
      (inMemory.reach household).Lists pets [[.int 2, .text "Rex"]] := by
  have start : (inMemory.reach (household.take 2)).Lists people [] ∧
      (inMemory.reach (household.take 2)).Lists pets [] :=
    ⟨lists_nil (by with_unfolding_all rfl), lists_nil (by with_unfolding_all rfl)⟩
  have one : ∀ row ∈ [[Value.int 1, .text "Ann"]],
      ∃ bytes, Row.encode people row = .ok bytes ∧ bytes.length ≤ maxRowSize := by
    rintro row (_ | ⟨_, ⟨⟩⟩)
    exact ⟨_, by with_unfolding_all rfl, by decide⟩
  have other : ∀ row ∈ [[Value.int 2, .text "Rex"]],
      ∃ bytes, Row.encode pets row = .ok bytes ∧ bytes.length ≤ maxRowSize := by
    rintro row (_ | ⟨_, ⟨⟩⟩)
    exact ⟨_, by with_unfolding_all rfl, by decide⟩
  have builtAnn : [ann].mapM (buildRow people) = .ok [[.int 1, .text "Ann"]] := by
    with_unfolding_all rfl
  have builtRex : [rex].mapM (buildRow pets) = .ok [[.int 2, .text "Rex"]] := by
    with_unfolding_all rfl
  have apart : Text.fold pets.table ≠ Text.fold people.table := by decide +kernel
  have takes : ∀ write, Disk.empty.refuses write = false := fun _ => rfl
  obtain ⟨first, kept⟩ := start.1.insert builtAnn one takes
  obtain ⟨second, keptFirst⟩ := (kept pets [] apart start.2).insert builtRex other takes
  exact ⟨keptFirst people _ apart.symm first, second⟩

end RowStore.Engine
