import RowStore.Proofs.Engine.Isolation
import RowStore.Proofs.Engine.Insertion

/-!
Updates on a disk that refuses some writes. An update takes two writes for each row that it is about: the
first deletes the row, the second stores its new form. An update that meets a refused write fails, and no
row is lost if that was the first of the two. If it was the second, the row is lost.
-/

namespace RowStore

namespace HeapFile

variable {heap next : HeapFile} {gone : List RowId} {added : List Row}
  {revisions : List (RowId × Row)}

/-- Rows that can take the places of others, each at the address of the row that it is for. -/
structure Revisable (heap : HeapFile) (revisions : List (RowId × Row)) : Prop where
  distinct : (revisions.map Prod.fst).Nodup
  present : ∀ entry ∈ revisions, ∃ row, heap.rowAt? entry.1 = some row
  fit : ∀ entry ∈ revisions, ∃ bytes, heap.encode entry.2 = .ok bytes

/-- A heap after an update of which only a part was done: there are as many rows as before, the rows that
the update is not about are as they were, and of each other row there is the old form or the new one. -/
structure Spares (heap : HeapFile) (revisions : List (RowId × Row)) (next : HeapFile) : Prop where
  count : next.rows.length = heap.rows.length
  others : ∀ id row, id ∉ revisions.map Prod.fst →
    heap.rowAt? id = some row → next.rowAt? id = some row
  each : ∃ done : List (RowId × Row), done.Sublist revisions ∧
    heap.Reworked (done.map Prod.fst) (done.map Prod.snd) next

/-- The rows that are gone were there, each once. -/
theorem length_filter_notMem (distinct : gone.Nodup)
    (present : ∀ id ∈ gone, ∃ row, heap.rowAt? id = some row) :
    (heap.rows.filter fun entry => entry.1 ∉ gone).length + gone.length = heap.rows.length := by
  have taken : ((heap.rows.filter fun entry => entry.1 ∈ gone).map Prod.fst).Perm gone := by
    rw [List.perm_ext_iff_of_nodup (heap.nodup_ids_filter _) distinct]
    intro id
    simp only [List.mem_map, List.mem_filter, decide_eq_true_eq, Prod.exists, mem_rows]
    constructor
    · rintro ⟨_, _, ⟨_, member⟩, rfl⟩
      exact member
    · intro member
      obtain ⟨row, found⟩ := present id member
      exact ⟨id, row, ⟨found, member⟩, rfl⟩
  rw [← taken.length_eq, List.length_map, Nat.add_comm,
    heap.rows.length_eq_length_filter_add fun entry => entry.1 ∈ gone]
  simp only [decide_not]

namespace Reworked

theorem length_rows (reworked : heap.Reworked gone added next) (distinct : gone.Nodup)
    (present : ∀ id ∈ gone, ∃ row, heap.rowAt? id = some row) :
    next.rows.length + gone.length = heap.rows.length + added.length := by
  have before := length_filter_notMem distinct present
  have after := reworked.map_snd_perm.length_eq
  simp only [List.length_map, List.length_append] at after
  omega

theorem rowAt?_of_notMem {id : RowId} {row : Row} (reworked : heap.Reworked gone added next)
    (kept : id ∉ gone) (found : heap.rowAt? id = some row) : next.rowAt? id = some row := by
  obtain ⟨_, _, _, perm⟩ := reworked
  rw [← mem_rows, perm.mem_iff, List.mem_append, List.mem_filter, mem_rows]
  exact .inr ⟨found, by simpa using kept⟩

end Reworked

namespace Revisable

theorem exists_rowAt? {done : List (RowId × Row)} (revisable : heap.Revisable revisions)
    (part : done.Sublist revisions) : ∀ id ∈ done.map Prod.fst, ∃ row, heap.rowAt? id = some row := by
  intro id member
  obtain ⟨entry, among, rfl⟩ := List.mem_map.mp member
  exact revisable.present entry (part.subset among)

/-- Exchanging a part of the rows spares all of them. -/
theorem spares {done : List (RowId × Row)} (revisable : heap.Revisable revisions)
    (part : done.Sublist revisions)
    (reworked : heap.Reworked (done.map Prod.fst) (done.map Prod.snd) next) :
    heap.Spares revisions next := by
  have fewer := part.map Prod.fst
  refine ⟨?count, fun id row kept => ?others, done, part, reworked⟩
  case count =>
    have counted := reworked.length_rows (revisable.distinct.sublist fewer)
      (revisable.exists_rowAt? part)
    simp only [List.length_map] at counted
    omega
  case others => exact reworked.rowAt?_of_notMem fun member => kept (fewer.subset member)

end Revisable

end HeapFile

namespace Engine

variable {settings : Settings} {plan : Nat → Bool} {engine : Engine} {disk : Disk} {target : Source}
  {columns : List String} {values : List Expr} {condition : Option Expr} {table : String}
  {heap kept : HeapFile} {revisions : List (RowId × Row)}

/-- The rows that a statement finds are those of its table that its compiled condition accepts. -/
theorem exists_of_candidates {schema : Schema} {found : List (RowId × Row)}
    (selected : engine.candidates schema heap condition = .ok found) :
    heap.Readable ∧ ∃ predicate, engine.compileWhere schema condition = .ok predicate ∧
      found = heap.rows.filter fun entry =>
        ((predicate.test entry.2).mapError EngineError.eval).toOption.getD false := by
  obtain ⟨predicate, compiled, scanned⟩ := Outcome.bind_eq_ok_iff.mp selected
  have readable := HeapFile.Readable.of_scanWhere scanned
  rw [readable.scanWhere_eq, Outcome.map_eq_ok_iff] at scanned
  obtain ⟨_, _, rfl⟩ := scanned
  exact ⟨readable, predicate, compiled, rfl⟩

/-- The rows of an update are found with their addresses, and each new one was checked. -/
theorem revisable_of_revision
    (revised : engine.revision target columns values condition = .ok (table, heap, revisions)) :
    heap.Revisable revisions := by
  obtain ⟨schema, set, found, _, _, _, selected, each⟩ := revision_eq_ok revised
  obtain ⟨_, predicate, _, rfl⟩ := exists_of_candidates selected
  rw [mapM_revise, Outcome.map_eq_ok_iff] at each
  obtain ⟨_, checked, rfl⟩ := each
  constructor
  case distinct =>
    rw [List.map_map]
    exact heap.nodup_ids_filter _
  case present =>
    intro entry member
    obtain ⟨old, among, rfl⟩ := List.mem_map.mp member
    exact ⟨old.2, (heap.mem_rows _ _).mp (List.mem_of_mem_filter among)⟩
  case fit =>
    intro entry member
    obtain ⟨old, among, rfl⟩ := List.mem_map.mp member
    obtain ⟨_, fits⟩ := Outcome.exists_of_mapM_eq_ok checked among
    exact HeapFile.exists_encode_of_checkInsertable (Outcome.mapError_eq_ok_iff.mp fits)

/-- What an update does on a disk that refuses some writes. It goes on up to the first that is refused:
then as many rows are gone as were deleted, and as many have taken their places as were stored. -/
inductive Revises (target : Source) (columns : List String) (values : List Expr)
    (condition : Option Expr) (engine : Engine) (disk : Disk) :
    Except EngineError String → Engine → Prop where
  | rejected (error : EngineError)
      (failed : engine.revision target columns values condition = .error error) :
      Revises target columns values condition engine disk (.error error) engine
  | finished (table : String) (heap : HeapFile) (revisions : List (RowId × Row)) (kept : HeapFile)
      (revised : engine.revision target columns values condition = .ok (table, heap, revisions))
      (taken : ∀ count < 2 * revisions.length, ¬ heap.RefusesAfter disk count)
      (reworked : heap.Reworked (revisions.map Prod.fst) (revisions.map Prod.snd) kept) :
      Revises target columns values condition engine disk
        (.ok (Report.countMessage "Updated" revisions.length)) (engine.withHeap table kept)
  | stopped (table : String) (heap : HeapFile) (revisions : List (RowId × Row)) (kept : HeapFile)
      (count : Nat)
      (revised : engine.revision target columns values condition = .ok (table, heap, revisions))
      (before : count < 2 * revisions.length)
      (taken : ∀ earlier < count, ¬ heap.RefusesAfter disk earlier)
      (refusal : heap.RefusesAfter disk count)
      (reworked : heap.Reworked ((revisions.take ((count + 1) / 2)).map Prod.fst)
        ((revisions.take (count / 2)).map Prod.snd) kept) :
      Revises target columns values condition engine disk
        (.error (.storage (.disk .writesRefused))) (engine.withHeap table kept)

theorem revises (settled : engine.Settled settings) (disk : Disk) (target : Source)
    (columns : List String) (values : List Expr) (condition : Option Expr) :
    Revises target columns values condition engine disk
      ((update target columns values condition).runOn (engine, disk)).1
      ((update target columns values condition).runOn (engine, disk)).2.1 := by
  cases revised : engine.revision target columns values condition with
  | error error =>
    rw [runOn_update_rejected disk revised]
    exact .rejected error revised
  | ok revision =>
    obtain ⟨table, heap, revisions⟩ := revision
    obtain ⟨schema, _, _, _, handled, _⟩ := revision_eq_ok revised
    have revisable := revisable_of_revision revised
    obtain ⟨count, taken, stopped, reworked⟩ :=
      HeapFile.reworked_exchangeAll (settled.handle_sound handled).1 disk revisions revisable.distinct
        revisable.present revisable.fit
    rw [runOn_update disk revised]
    rcases stopped with ⟨rfl, done⟩ | ⟨before, refusal, failed⟩
    · rw [List.take_of_length_le (by omega), List.take_of_length_le (by omega)] at reworked
      rw [done]
      exact .finished table heap revisions _ revised taken reworked
    · rw [failed]
      exact .stopped table heap revisions _ count revised before taken refusal reworked

/-- An update that ends with an error of the disk leaves the engine as it is or spares all rows of its
table. -/
def SparesRows (target : Source) (columns : List String) (values : List Expr)
    (condition : Option Expr) (engine : Engine) (disk : Disk) : Prop :=
  ∀ fault next after,
    (update target columns values condition).runOn (engine, disk) =
      (.error (.storage (.disk fault)), next, after) →
    next = engine ∨ ∃ table heap revisions kept,
      engine.revision target columns values condition = .ok (table, heap, revisions) ∧
      next = engine.withHeap table kept ∧ heap.Spares revisions kept

/-- The first write of an update that is refused is the one that stores the new form of the row at a
position among those that the update is about. -/
def StopsBetween (target : Source) (columns : List String) (values : List Expr)
    (condition : Option Expr) (engine : Engine) (disk : Disk) (position : Nat) : Prop :=
  ∃ table heap revisions,
    engine.revision target columns values condition = .ok (table, heap, revisions) ∧
    position < revisions.length ∧
    (∀ count < 2 * position + 1, ¬ heap.RefusesAfter disk count) ∧
    heap.RefusesAfter disk (2 * position + 1)

/-- An update fails with the rows up to a position gone, and with all of these but the last one back. -/
def LosesRow (target : Source) (columns : List String) (values : List Expr)
    (condition : Option Expr) (engine : Engine) (disk : Disk) (position : Nat) : Prop :=
  ∃ table heap revisions kept after,
    engine.revision target columns values condition = .ok (table, heap, revisions) ∧
    (update target columns values condition).runOn (engine, disk) =
      (.error (.storage (.disk .writesRefused)), engine.withHeap table kept, after) ∧
    heap.Reworked ((revisions.take (position + 1)).map Prod.fst)
      ((revisions.take position).map Prod.snd) kept ∧
    kept.rows.length + 1 = heap.rows.length

theorem losesRow_of_stopsBetween {position : Nat} (settled : engine.Settled settings)
    (stops : StopsBetween target columns values condition engine disk position) :
    LosesRow target columns values condition engine disk position := by
  obtain ⟨table, heap, revisions, revised, inside, taken, refusal⟩ := stops
  have revises := revises settled disk target columns values condition
  rcases ran : (update target columns values condition).runOn (engine, disk) with ⟨result, next, after⟩
  rw [ran] at revises
  cases revises with
  | rejected error failed => cases failed.symm.trans revised
  | finished table heap revisions kept again all reworked =>
    cases revised.symm.trans again
    exact absurd refusal (all _ (by omega))
  | stopped table heap revisions kept count again before earlier refused reworked =>
    cases revised.symm.trans again
    have same : count = 2 * position + 1 := by
      rcases Nat.lt_trichotomy count (2 * position + 1) with less | same | more
      · exact absurd refused (taken count less)
      · exact same
      · exact absurd refusal (earlier _ more)
    have deleted : (count + 1) / 2 = position + 1 := by omega
    have stored : count / 2 = position := by omega
    rw [deleted, stored] at reworked
    have revisable := revisable_of_revision revised
    have first := List.take_sublist (position + 1) revisions
    have counted := reworked.length_rows (revisable.distinct.sublist (first.map Prod.fst))
      (revisable.exists_rowAt? first)
    simp only [List.length_map, List.length_take] at counted
    exact ⟨table, heap, revisions, kept, after, revised, ran, reworked, by omega⟩

theorem not_sparesRows {position : Nat}
    (loses : LosesRow target columns values condition engine disk position) :
    ¬ SparesRows target columns values condition engine disk := by
  intro spares
  obtain ⟨table, heap, revisions, kept, after, revised, ran, _, fewer⟩ := loses
  obtain ⟨schema, _, _, _, handled, _⟩ := revision_eq_ok revised
  have held {spared : HeapFile} (same : (engine.withHeap table kept).heaps.get? table = some spared) :
      kept = spared := by
    rw [get?_withHeap, if_pos rfl] at same
    exact Option.some.inj same
  rcases spares _ _ _ ran with unchanged | ⟨_, _, _, spared, again, exchanged, sparing⟩
  · have same : kept = heap := held (by rw [unchanged]; exact ((handle_eq_ok_iff _ _ _ _).mp handled).2)
    rw [same] at fewer
    omega
  · cases revised.symm.trans again
    have same : kept = spared := held (by rw [exchanged, get?_withHeap, if_pos rfl])
    have counted := sparing.count
    rw [← same] at counted
    omega

/-- Without such a write the update stops before a row is deleted, and as many rows are back as are gone. -/
theorem sparesRows (settled : engine.Settled settings)
    (never : ∀ position, ¬ StopsBetween target columns values condition engine disk position) :
    SparesRows target columns values condition engine disk := by
  intro fault next after ran
  have revises := revises settled disk target columns values condition
  rw [ran] at revises
  cases revises with
  | rejected => exact .inl rfl
  | stopped table heap revisions kept count revised before taken refusal reworked =>
    have even : count % 2 = 0 := by
      by_contra odd
      have same : 2 * (count / 2) + 1 = count := by omega
      exact never (count / 2) ⟨table, heap, revisions, revised, by omega, by rwa [same], by rwa [same]⟩
    have deleted : (count + 1) / 2 = count / 2 := by omega
    rw [deleted] at reworked
    exact .inr ⟨table, heap, revisions, kept, revised, rfl,
      (revisable_of_revision revised).spares (List.take_sublist _ _) reworked⟩

/-- An update that meets a refused write spares all rows of its table, unless the first such write is one
that stores the new form of a row. Then that row is lost. -/
theorem sparesRows_iff (endures : Endures settings plan (some engine) disk) (target : Source)
    (columns : List String) (values : List Expr) (condition : Option Expr) :
    (SparesRows target columns values condition engine disk ↔
      ∀ position, ¬ StopsBetween target columns values condition engine disk position) ∧
    ∀ position, StopsBetween target columns values condition engine disk position →
      LosesRow target columns values condition engine disk position := by
  have settled := endures.settled.1 engine rfl
  refine ⟨⟨fun spares position stops => ?_, sparesRows settled⟩,
    fun position stops => losesRow_of_stopsBetween settled stops⟩
  exact not_sparesRows (losesRow_of_stopsBetween settled stops) spares

/-- An empty disk that refuses one write. -/
def refusing (write : Nat) : Disk := { Disk.empty with refuses := (· == write) }

/-- A new database on such a disk once it has a table with a row. -/
def stockedBeside (write : Nat) : Engine × Disk :=
  following (following (vacant "db", refusing write) (creation "t")) (.insert "t" [[.literal (.number "1")]])

theorem runOn_openWith_refusing (write : Nat) :
    (openWith (.inDirectory "db")).runOn (refusing write) = (.ok (vacant "db"), refusing write) := by
  with_unfolding_all rfl

theorem Endures.following (endures : Endures settings plan (some engine) disk) (statement : Statement) :
    Endures settings plan (some (Engine.following (engine, disk) statement).1)
      (Engine.following (engine, disk) statement).2 :=
  .executed engine disk statement _ _ _ endures rfl

theorem endures_stockedBeside (write : Nat) : Endures (.inDirectory "db") (· == write)
    (some (stockedBeside write).1) (stockedBeside write).2 := by
  have opened : Endures (.inDirectory "db") (· == write) (some (vacant "db")) (refusing write) :=
    .opened none (refusing write) _ _ (.start _ (Disk.orderly_empty _ _)) (runOn_openWith_refusing write)
  exact (opened.following (creation "t")).following _

/-- Whether the update that sets the number of the row to another one is about that row alone, and whether
two writes were tried before it. -/
def seesUpdate (write : Nat) : Bool :=
  match (stockedBeside write).1.revision (.table "t" none) ["a"] [.literal (.number "2")] none with
  | .ok (table, heap, revisions) =>
    table = "t" ∧ heap.backing.isSome ∧ heap.rows = [(⟨0, 0⟩, [.int 1])] ∧
      revisions = [(⟨0, 0⟩, [.int 2])] ∧ (stockedBeside write).2.writes = 2
  | .error _ => false

theorem seesUpdate_two : seesUpdate 2 := by decide +kernel

theorem seesUpdate_three : seesUpdate 3 := by decide +kernel

theorem exists_of_seesUpdate {write : Nat} (sees : seesUpdate write) :
    ∃ heap, (stockedBeside write).1.revision (.table "t" none) ["a"] [.literal (.number "2")] none =
        .ok ("t", heap, [(⟨0, 0⟩, [.int 2])]) ∧
      heap.rows = [(⟨0, 0⟩, [.int 1])] ∧
      ∀ count, heap.RefusesAfter (stockedBeside write).2 count ↔ 2 + count = write := by
  have refuses_eq := (endures_stockedBeside write).settled.2.refuses_eq
  rw [seesUpdate] at sees
  cases revised : (stockedBeside write).1.revision (.table "t" none) ["a"] [.literal (.number "2")] none with
  | error error => simp [revised] at sees
  | ok planned =>
    obtain ⟨table, heap, revisions⟩ := planned
    rw [revised] at sees
    obtain ⟨rfl, behind, rows_eq, rfl, written⟩ := of_decide_eq_true sees
    refine ⟨heap, rfl, rows_eq, fun count => ?_⟩
    rw [HeapFile.RefusesAfter, refuses_eq, written, beq_iff_eq, and_iff_right behind]

/-- The disk refuses the write that deletes the row: the update fails, and the row stays as it is. -/
theorem sparesRows_refused_deletion :
    Endures (.inDirectory "db") (· == 2) (some (stockedBeside 2).1) (stockedBeside 2).2 ∧
      SparesRows (.table "t" none) ["a"] [.literal (.number "2")] none
        (stockedBeside 2).1 (stockedBeside 2).2 ∧
      ∃ kept after,
        (update (.table "t" none) ["a"] [.literal (.number "2")] none).runOn (stockedBeside 2) =
          (.error (.storage (.disk .writesRefused)), (stockedBeside 2).1.withHeap "t" kept, after) ∧
        kept.rows.Perm [(⟨0, 0⟩, [.int 1])] := by
  have endures := endures_stockedBeside 2
  obtain ⟨heap, revised, rows_eq, refusesAfter_iff⟩ := exists_of_seesUpdate seesUpdate_two
  have refused : heap.RefusesAfter (stockedBeside 2).2 0 := (refusesAfter_iff 0).mpr rfl
  refine ⟨endures, (sparesRows_iff endures _ _ _ _).1.mpr ?never, ?fails⟩
  case never =>
    rintro position ⟨_, _, _, again, _, taken, _⟩
    cases revised.symm.trans again
    exact taken 0 (by omega) refused
  case fails =>
    have revises := revises (endures.settled.1 _ rfl) (stockedBeside 2).2 (.table "t" none) ["a"]
      [.literal (.number "2")] none
    rcases ran : (update (.table "t" none) ["a"] [.literal (.number "2")] none).runOn
      (stockedBeside 2) with ⟨result, next, after⟩
    rw [ran] at revises
    cases revises with
    | rejected error failed => cases failed.symm.trans revised
    | finished _ _ _ _ again taken =>
      cases revised.symm.trans again
      exact absurd refused (taken 0 (by simp))
    | stopped _ _ _ kept count again before taken refusal reworked =>
      cases revised.symm.trans again
      obtain rfl : count = 0 := by
        by_contra later
        exact taken 0 (by omega) refused
      obtain ⟨_, _, _, perm⟩ := reworked
      refine ⟨kept, after, rfl, ?_⟩
      simpa [rows_eq] using perm

/-- The disk refuses the write that stores the new form of the row: the update fails, and the row is lost. -/
theorem not_sparesRows_refused_insertion :
    Endures (.inDirectory "db") (· == 3) (some (stockedBeside 3).1) (stockedBeside 3).2 ∧
      ¬ SparesRows (.table "t" none) ["a"] [.literal (.number "2")] none
        (stockedBeside 3).1 (stockedBeside 3).2 ∧
      ∃ heap kept after, (stockedBeside 3).1.heaps.get? "t" = some heap ∧
        heap.rows = [(⟨0, 0⟩, [.int 1])] ∧
        (update (.table "t" none) ["a"] [.literal (.number "2")] none).runOn (stockedBeside 3) =
          (.error (.storage (.disk .writesRefused)), (stockedBeside 3).1.withHeap "t" kept, after) ∧
        kept.rows = [] := by
  have endures := endures_stockedBeside 3
  obtain ⟨heap, revised, rows_eq, refusesAfter_iff⟩ := exists_of_seesUpdate seesUpdate_three
  have stops : StopsBetween (.table "t" none) ["a"] [.literal (.number "2")] none (stockedBeside 3).1
      (stockedBeside 3).2 0 := by
    refine ⟨"t", heap, _, revised, by simp, fun count before refused => ?_, (refusesAfter_iff 1).mpr rfl⟩
    have same := (refusesAfter_iff count).mp refused
    omega
  have loses := losesRow_of_stopsBetween (endures.settled.1 _ rfl) stops
  refine ⟨endures, not_sparesRows loses, ?_⟩
  obtain ⟨_, _, _, kept, after, again, ran, _, fewer⟩ := loses
  cases revised.symm.trans again
  obtain ⟨_, _, _, _, handled, _⟩ := revision_eq_ok revised
  rw [rows_eq, List.length_singleton, Nat.add_eq_right, List.length_eq_zero_iff] at fewer
  exact ⟨heap, kept, after, ((handle_eq_ok_iff _ _ _ _).mp handled).2, rows_eq, ran, fewer⟩

end Engine

end RowStore
