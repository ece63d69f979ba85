import RowStore.Proofs.Condition.Literals
import RowStore.Proofs.Engine.Reachable
import RowStore.Proofs.Outcome

/-!
Insertions are all or nothing but for one case: a row too large for a page, behind rows that are stored
by then.
-/

namespace RowStore

theorem Expr.fits_of_storedIn {expr : Expr} {column : Column} {value : Value}
    (stored : expr.storedIn column = .ok value) : value.fits column.type = true := by
  obtain ⟨literal, _, stored⟩ := Outcome.bind_eq_ok_iff.mp stored
  exact Literal.fits_of_stored? (Literal.store_eq_ok_iff.mp (Outcome.mapError_eq_ok_iff.mp stored))

theorem Expr.fits_of_forall₂ {exprs : List Expr} {columns : List Column} {row : Row}
    (arity : exprs.length = columns.length)
    (each : List.Forall₂ (fun (given : Expr × Column) value => given.1.storedIn given.2 = .ok value)
      (exprs.zip columns) row) :
    row.length = columns.length ∧ ∀ pair ∈ row.zip columns, pair.1.fits pair.2.type = true := by
  induction columns generalizing exprs row with
  | nil =>
    rw [List.zip_nil_right, List.forall₂_nil_left_iff] at each
    simp [each]
  | cons column columns ih =>
    cases exprs with
    | nil => simp at arity
    | cons expr exprs =>
      cases each with
      | cons first later =>
        obtain ⟨length_eq, fits⟩ := ih (by simpa using arity) later
        refine ⟨by simp [length_eq], ?_⟩
        intro pair member
        rw [List.zip_cons_cons, List.mem_cons] at member
        rcases member with rfl | member
        · exact fits_of_storedIn first
        · exact fits pair member

/-- A row is built from as many expressions as there are columns, each of which gives one value. -/
theorem buildRow_eq_ok {schema : Schema} {exprs : List Expr} {row : Row}
    (built : buildRow schema exprs = .ok row) :
    exprs.length = schema.columns.length ∧
      ((exprs.zip schema.columns).mapM fun (expr, column) => expr.storedIn column) = .ok row := by
  rw [buildRow] at built
  split at built
  · cases built
  · rename_i arity
    exact ⟨not_not.mp arity, built⟩

/-- A row that expressions give is a row of the schema. -/
theorem check_of_buildRow {schema : Schema} {exprs : List Expr} {row : Row}
    (built : buildRow schema exprs = .ok row) : Row.check schema row = .ok () := by
  obtain ⟨arity, each⟩ := buildRow_eq_ok built
  exact (Row.check_eq_ok_iff schema row).mpr
    (Expr.fits_of_forall₂ arity ((Outcome.mapM_eq_ok_iff _ _ _).mp each))

namespace Engine

variable {settings : Settings} {engine next : Engine} {disk after : Disk} {table : String}
  {rows : List (List Expr)}

/-- An insertion that fails changes nothing, neither in memory nor on the disk; one that succeeds makes
the heap of its table grow by its rows, and changes no other heap. -/
structure AllOrNothing (table : String) (rows : List (List Expr)) (engine : Engine) (disk : Disk) :
    Prop where
  nothing : ∀ error next after, (insert table rows).runOn (engine, disk) = (.error error, next, after) →
    next.catalog = engine.catalog ∧ (∀ other, next.heaps.get? other = engine.heaps.get? other) ∧
      after = disk
  all : ∀ answer next after, (insert table rows).runOn (engine, disk) = (.ok answer, next, after) →
    ∃ schema heap built grown, engine.handle table = .ok (schema, heap) ∧
      rows.mapM (buildRow schema) = .ok built ∧ heap.Grown built grown ∧
      next.catalog = engine.catalog ∧
      ∀ other, next.heaps.get? other =
        if Text.fold other = Text.fold table then some grown else engine.heaps.get? other

/-- A list of rows that are all converted and of which the first fits a page, but a later one does
not. -/
def StopsHalfway (table : String) (rows : List (List Expr)) (engine : Engine) : Prop :=
  ∃ schema heap first rest, engine.handle table = .ok (schema, heap) ∧
    rows.mapM (buildRow schema) = .ok (first :: rest) ∧
    first.width schema.columns.length ≤ maxRowSize ∧
    ∃ row ∈ rest, maxRowSize < row.width schema.columns.length

/-- The rows of a table are taken exactly if a page has room for each. -/
theorem exists_encode_iff {schema : Schema} {heap : HeapFile} {built : List Row} {row : Row}
    (settled : engine.Settled settings) (handled : engine.handle table = .ok (schema, heap))
    (converted : rows.mapM (buildRow schema) = .ok built) (member : row ∈ built) :
    (∃ bytes, heap.encode row = .ok bytes) ↔ row.width schema.columns.length ≤ maxRowSize := by
  obtain ⟨exprs, _, given⟩ := Outcome.exists_of_mem_mapM converted member
  have same := (settled.handle_sound handled).2
  rw [← same] at given ⊢
  exact (heap.exists_encode_iff row).trans (and_iff_right (check_of_buildRow given))

theorem get?_withHeap (engine : Engine) (table other : String) (heap : HeapFile) :
    (engine.withHeap table heap).heaps.get? other =
      if Text.fold other = Text.fold table then some heap else engine.heaps.get? other :=
  HeapRegistry.get?_insert engine.heaps table other heap

/-- Where the rows stop half way, the first of them is stored and the insertion fails. -/
theorem not_allOrNothing (settled : engine.Settled settings)
    (takes : ∀ write, disk.refuses write = false) (stops : StopsHalfway table rows engine) :
    ¬ AllOrNothing table rows engine disk := by
  intro allOrNothing
  obtain ⟨schema, heap, first, rest, handled, converted, fits, row, member, large⟩ := stops
  have taken : ∀ row ∈ first :: rest, (∃ bytes, heap.encode row = .ok bytes) ↔
      row.width schema.columns.length ≤ maxRowSize :=
    fun row => exists_encode_iff settled handled converted
  obtain ⟨_, present⟩ := (handle_eq_ok_iff _ _ _ _).mp handled
  have sound := (settled.handle_sound handled).1
  have inserts := insertsRows rows disk (settled.heap_sound (Text.fold table))
  obtain ⟨nothing, _⟩ := allOrNothing
  generalize (insert table rows).runOn (engine, disk) = outcome at inserts nothing
  obtain ⟨result, next, after⟩ := outcome
  cases inserts with
  | unknown error failed =>
    rw [handled] at failed
    cases failed
  | rejected schema heap error found failed =>
    cases handled.symm.trans found
    rw [converted] at failed
    cases failed
  | worked schema heap built result grown after found done stores =>
    cases handled.symm.trans found
    cases converted.symm.trans done
    cases result with
    | ok _ =>
      have all := (stores.result_eq_ok_iff takes).mp rfl row (List.mem_cons_of_mem _ member)
      have small := (taken row (List.mem_cons_of_mem _ member)).mp all
      omega
    | error error =>
      obtain ⟨_, kept, _⟩ := nothing _ _ _ rfl
      have same : (engine.withHeap table grown).heaps.get? table = _ := kept table
      rw [get?_withHeap, if_pos rfl, present] at same
      cases Option.some.inj same
      obtain ⟨bytes, encoded⟩ := (taken first List.mem_cons_self).mpr fits
      cases stores with
      | stored id inserts later =>
        obtain ⟨_, _, stored⟩ := inserts.exists_stored sound
        exact stored.fresh (later.hasSlot (inserts.sound sound) ((stored.slots id).mpr (.inl rfl)))
      | failed error inserts =>
        cases inserts with
        | rejected cause rejection =>
          rw [encoded] at rejection
          cases rejection
        | refused bytes encoded refusal => simp [HeapFile.Refused, takes] at refusal

/-- Where they do not and storing them fails all the same, the very first is not taken. -/
theorem unchanged_of_stores {schema : Schema} {heap grown : HeapFile} {built : List Row}
    {error : StorageError} (settled : engine.Settled settings)
    (takes : ∀ write, disk.refuses write = false) (goes : ¬ StopsHalfway table rows engine)
    (handled : engine.handle table = .ok (schema, heap))
    (converted : rows.mapM (buildRow schema) = .ok built)
    (stores : HeapFile.Stores heap disk built (.error error) grown after) :
    grown = heap ∧ after = disk := by
  have taken : ∀ row ∈ built, (∃ bytes, heap.encode row = .ok bytes) ↔
      row.width schema.columns.length ≤ maxRowSize :=
    fun row => exists_encode_iff settled handled converted
  cases built with
  | nil => cases stores
  | cons first rest =>
    have failed := stores.result_eq_ok_iff takes
    cases stores with
    | stored id inserts later =>
      obtain ⟨bytes, encoded, _⟩ := inserts.exists_stored (settled.handle_sound handled).1
      have small := (taken first List.mem_cons_self).mp ⟨bytes, encoded⟩
      refine absurd ?_ goes
      refine ⟨schema, heap, first, rest, handled, converted, small, ?_⟩
      by_contra fitting
      have never : Except.error error = .ok () := failed.mpr ?_
      · cases never
      · intro row member
        rw [taken row member]
        rcases List.mem_cons.mp member with rfl | among
        · exact small
        · exact Nat.le_of_not_lt fun large => fitting ⟨row, among, large⟩
    | failed error inserts =>
      cases inserts with
      | rejected => exact ⟨rfl, rfl⟩
      | refused bytes encoded refusal => simp [HeapFile.Refused, takes] at refusal

theorem allOrNothing (settled : engine.Settled settings)
    (takes : ∀ write, disk.refuses write = false) (goes : ¬ StopsHalfway table rows engine) :
    AllOrNothing table rows engine disk := by
  have inserts := insertsRows rows disk (settled.heap_sound (Text.fold table))
  constructor
  case nothing =>
    intro error next after ran
    rw [ran] at inserts
    generalize given : (Except.error error : Except EngineError String) = outcome at inserts
    cases inserts with
    | unknown => exact ⟨rfl, fun other => rfl, rfl⟩
    | rejected => exact ⟨rfl, fun other => rfl, rfl⟩
    | worked schema heap built result grown after handled converted stores =>
      cases result with
      | ok _ => cases given
      | error error =>
        obtain ⟨rfl, rfl⟩ := unchanged_of_stores settled takes goes handled converted stores
        refine ⟨rfl, fun other => (get?_withHeap engine table other grown).trans ?_, rfl⟩
        split
        · rename_i same
          rw [HeapRegistry.get?, same]
          exact ((handle_eq_ok_iff _ _ _ _).mp handled).2.symm
        · rfl
  case all =>
    intro answer next after ran
    rw [ran] at inserts
    generalize given : (Except.ok answer : Except EngineError String) = outcome at inserts
    cases inserts with
    | unknown => cases given
    | rejected => cases given
    | worked schema heap built result grown after handled converted stores =>
      cases result with
      | error error => cases given
      | ok _ =>
        have sound := (settled.handle_sound handled).1
        exact ⟨schema, heap, built, grown, handled, converted, stores.grown sound rfl, rfl,
          fun other => get?_withHeap engine table other grown⟩

/-- An insertion is all or nothing exactly unless it stops half way. -/
theorem allOrNothing_iff (reached : Reachable settings (some engine) disk) (table : String)
    (rows : List (List Expr)) :
    AllOrNothing table rows engine disk ↔ ¬ StopsHalfway table rows engine := by
  obtain ⟨settled, ready⟩ := reached.settled
  have settled := settled engine rfl
  constructor
  · intro allOrNothing stops
    exact not_allOrNothing settled ready.takes stops allOrNothing
  · exact allOrNothing settled ready.takes

/-- A database in memory with a table of one column of texts. -/
def withTexts : Engine :=
  ((execute (.createTable "t" [⟨"a", "TEXT", none⟩])).runOn (.inMemory, .empty)).2.1

theorem reachable_withTexts : Reachable .inMemory (some withTexts) .empty := by
  have ready : Disk.empty.Ready Settings.inMemory.catalogPlace? :=
    Disk.ready_iff_orderly.mpr (Disk.orderly_empty _ _)
  have opened : Reachable .inMemory (some .inMemory) .empty :=
    .opened none .empty (.ok .inMemory) .empty (.start .empty ready) rfl
  have executed : Reachable .inMemory (some withTexts)
      ((execute (.createTable "t" [⟨"a", "TEXT", none⟩])).runOn (inMemory, Disk.empty)).2.2 := by
    rw [withTexts]
    cases ran : (execute (.createTable "t" [⟨"a", "TEXT", none⟩])).runOn (inMemory, Disk.empty) with
    | mk result state => exact .executed _ _ _ result state.1 state.2 opened ran
  have untouched : ((execute (.createTable "t" [⟨"a", "TEXT", none⟩])).runOn
      (inMemory, Disk.empty)).2.2 = .empty := by with_unfolding_all rfl
  rwa [untouched] at executed

theorem handle_withTexts : withTexts.handle "t" =
    .ok (⟨"t", [.ofType "a" .text]⟩, .inMemory ⟨"t", [.ofType "a" .text]⟩) := by
  with_unfolding_all rfl

/-- Two short texts are inserted together. -/
theorem allOrNothing_withTexts : Reachable .inMemory (some withTexts) .empty ∧
    AllOrNothing "t" [[.literal (.string "one")], [.literal (.string "two")]] withTexts .empty := by
  refine ⟨reachable_withTexts, (allOrNothing_iff reachable_withTexts "t" _).mpr ?_⟩
  rintro ⟨schema, heap, first, rest, handled, converted, _, row, member, large⟩
  cases handle_withTexts.symm.trans handled
  cases converted
  rw [List.mem_singleton.mp member] at large
  change maxRowSize < Row.width 1 [.text "two"] at large
  rw [width_text] at large
  exact absurd large (by decide)

/-- A text too large for a page fails the insertion with the short one before it stored. -/
theorem not_allOrNothing_withTexts : Reachable .inMemory (some withTexts) .empty ∧
    ¬ AllOrNothing "t" [[.literal (.string "short")],
        [.literal (.string (String.ofList (List.replicate 5000 'x')))]] withTexts .empty := by
  refine ⟨reachable_withTexts, ?_⟩
  obtain ⟨settled, ready⟩ := reachable_withTexts.settled
  apply not_allOrNothing (settled _ rfl) ready.takes
  refine ⟨_, _, [.text "short"], [[.text (String.ofList (List.replicate 5000 'x'))]],
    handle_withTexts, rfl, ?fits, _, List.mem_singleton_self _, ?large⟩
  case fits =>
    change Row.width 1 [.text "short"] ≤ maxRowSize
    rw [width_text]
    decide
  case large =>
    change maxRowSize < Row.width 1 [.text (String.ofList (List.replicate 5000 'x'))]
    rw [width_text, utf8ByteSize_replicate]
    decide

end Engine

end RowStore
