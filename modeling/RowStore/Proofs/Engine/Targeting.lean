import RowStore.Proofs.Condition.Meaning
import RowStore.Proofs.Engine.Assigning
import RowStore.Proofs.Engine.Interruption
import RowStore.Proofs.Engine.Rewriting
import RowStore.Proofs.Heap.Relocating
import RowStore.Proofs.Heap.Scanning
import RowStore.Proofs.Row.Shape

/-!
The rows that an update or a deletion is about. They are those that meet its condition as the database
stands before it, and no others: what an update has written it never comes back to.
-/

namespace RowStore

open HeapFile (deleteAll exchangeAll)

/-- The rows of a heap follow its schema. -/
theorem HeapFile.admits_of_mem_rows {heap : HeapFile} {entry : RowId × Row} (member : entry ∈ heap.rows) :
    heap.schema.Admits entry.2 := by
  obtain ⟨bytes, _, decoded⟩ := (heap.rowAt?_eq_some_iff _ _).mp ((heap.mem_rows _ _).mp member)
  exact admits_of_decode decoded

namespace Engine

variable {settings : Settings} {engine : Engine} {disk : Disk} {schema : Schema} {heap : HeapFile}
  {condition : Option Expr} {found : List (RowId × Row)}

/-- Whether a row meets the condition of a statement, if there is one. Sub-queries are answered by the
engine as it is. -/
def meets (engine : Engine) (schema : Schema) (condition : Option Expr) (row : Row) : Bool :=
  match condition with
  | none => true
  | some condition =>
    (condition.evaluate schema row
      (some fun query _ => do return (← engine.run query).rows)).toOption.getD false

/-- A compiled condition accepts the rows that meet the condition. -/
theorem accepts_eq_meets {predicate : Predicate} {row : Row}
    (compiled : engine.compileWhere schema condition = .ok predicate)
    (wide : schema.columns.length ≤ row.length) :
    ((predicate.test row).mapError EngineError.eval).toOption.getD false =
      engine.meets schema condition row := by
  cases condition with
  | none =>
    rw [compileWhere] at compiled
    cases compiled
    rfl
  | some condition =>
    rw [compileWhere] at compiled
    have same := evaluate_of_compile compiled wide
    rw [meets]
    generalize condition.evaluate schema row _ = direct at same ⊢
    generalize predicate.test row = tested at same ⊢
    cases same <;> rfl

/-- The rows that a statement finds are those of its table that meet its condition. -/
theorem candidates_eq_ok (same : heap.schema = schema)
    (selected : engine.candidates schema heap condition = .ok found) :
    heap.Readable ∧ found = heap.rows.filter fun entry => engine.meets schema condition entry.2 := by
  obtain ⟨readable, predicate, compiled, rfl⟩ := exists_of_candidates selected
  refine ⟨readable, List.filter_congr fun entry member => ?_⟩
  have admits := heap.admits_of_mem_rows member
  rw [same] at admits
  exact accepts_eq_meets compiled admits.length_eq.ge

/-- Deleting the rows that meet a condition deletes each of them, and leaves the others as they were. -/
theorem deleteAll_matching (sound : heap.Sound) (readable : heap.Readable)
    (takes : ∀ write, disk.refuses write = false) (meets : Row → Bool) :
    ((deleteAll (heap.rows.filter fun entry => meets entry.2)).runOn (heap, disk)).1 =
        .ok (List.replicate (heap.rows.countP fun entry => meets entry.2) true) ∧
      ((deleteAll (heap.rows.filter fun entry => meets entry.2)).runOn (heap, disk)).2.1.scanWithIds =
        .ok (heap.rows.filter fun entry => !meets entry.2) := by
  have present : ∀ entry ∈ heap.rows.filter fun entry => meets entry.2,
      heap.rowAt? entry.1 = some entry.2 :=
    fun entry member => (heap.mem_rows _ _).mp (List.mem_of_mem_filter member)
  have calls := HeapFile.calls_deleteAll sound disk (heap.rows.filter fun entry => meets entry.2)
  obtain ⟨done, left⟩ := HeapFile.rows_deleteAll sound takes _ (heap.nodup_ids_filter _) present
  rw [heap.filter_elsewhere] at left
  rw [done, (calls.readable sound readable).scanWithIds_eq, List.countP_eq_length_filter]
  exact ⟨rfl, congrArg _ (HeapFile.eq_of_perm left (HeapFile.pairwise_rows _) (heap.pairwise_rows.filter _))⟩

/-- Exchanging the rows that meet a condition for new forms that fit gives each of them a new address. -/
theorem exchangeAll_matching {meets : Row → Bool} {becomes : Row → Row → Prop}
    {visits : List (RowId × Row)} (sound : heap.Sound) (readable : heap.Readable)
    (takes : ∀ write, disk.refuses write = false) (revisable : heap.Revisable visits) (renew : Row → Row)
    (marked : visits = (heap.rows.filter fun entry => meets entry.2).map fun entry =>
      (entry.1, renew entry.2))
    (renews : ∀ entry ∈ heap.rows, becomes entry.2 (renew entry.2)) :
    ((exchangeAll visits).runOn (heap, disk)).1 = .ok () ∧
      ∃ rescanned ids, ((exchangeAll visits).runOn (heap, disk)).2.1.scanWithIds = .ok rescanned ∧
        heap.Relocates meets becomes heap.rows rescanned ids := by
  have names : visits.map Prod.fst = (heap.rows.filter fun entry => meets entry.2).map Prod.fst := by
    rw [marked, List.map_map]
    rfl
  have forms : visits.map Prod.snd =
      (heap.rows.filter fun entry => meets entry.2).map fun entry => renew entry.2 := by
    rw [marked, List.map_map]
    rfl
  have calls := HeapFile.calls_exchangeAll sound disk visits
  obtain ⟨count, _, ⟨rfl, done⟩ | ⟨_, refusal, _⟩, reworked⟩ :=
    HeapFile.reworked_exchangeAll sound disk visits revisable.distinct revisable.present revisable.fit
  · rw [List.take_of_length_le (by omega), List.take_of_length_le (by omega), names, forms] at reworked
    obtain ⟨ids, relocates⟩ := reworked.relocates
    exact ⟨done, _, ids, (calls.readable sound readable).scanWithIds_eq, relocates.mono renews⟩
  · exact absurd refusal (HeapFile.not_refusesAfter takes count)

/-- What a deletion has done that was answered: the rows that met its condition are gone, all others are
where they were, in the same order, and the answer counts the rows that are gone. -/
def DeletesMatching (target : Source) (condition : Option Expr) (engine : Engine) (answer : String)
    (next : Engine) : Prop :=
  ∃ table schema heap scanned kept, target.targetTable = .ok table ∧
    engine.handle table = .ok (schema, heap) ∧ heap.scanWithIds = .ok scanned ∧
    next = engine.withHeap table kept ∧
    kept.scanWithIds = .ok (scanned.filter fun entry => !engine.meets schema condition entry.2) ∧
    answer = Report.countMessage "Deleted"
      (scanned.countP fun entry => engine.meets schema condition entry.2)

/-- What an update has done that was answered: the rows that met its condition have moved, with the columns
set, all others are where they were, and the answer counts the rows that have moved. The addresses that it
visited are those of these rows, and none that it has given out itself. -/
def UpdatesMatching (target : Source) (columns : List String) (values : List Expr)
    (condition : Option Expr) (engine : Engine) (disk : Disk) (answer : String) (next : Engine)
    (after : Disk) : Prop :=
  ∃ table schema heap scanned kept rescanned ids visits, target.targetTable = .ok table ∧
    engine.handle table = .ok (schema, heap) ∧ heap.scanWithIds = .ok scanned ∧
    next = engine.withHeap table kept ∧ kept.scanWithIds = .ok rescanned ∧
    heap.Relocates (engine.meets schema condition) (SetsColumns schema columns values) scanned rescanned
      ids ∧
    answer = Report.countMessage "Updated"
      (scanned.countP fun entry => engine.meets schema condition entry.2) ∧
    (exchangeAll visits).runOn (heap, disk) = (.ok (), kept, after) ∧
    visits.map Prod.fst =
      (scanned.filter fun entry => engine.meets schema condition entry.2).map Prod.fst ∧
    ∀ id ∈ ids, id ∉ visits.map Prod.fst

section

variable {target : Source} {columns : List String} {values : List Expr} {answer : String} {next : Engine}
  {after : Disk} (settled : engine.Settled settings) (takes : ∀ write, disk.refuses write = false)

include settled takes

theorem deletesMatching
    (done : (delete target condition).runOn (engine, disk) = (.ok answer, next, after)) :
    DeletesMatching target condition engine answer next := by
  cases selected : engine.deletion target condition with
  | error error =>
    rw [runOn_delete_rejected disk selected] at done
    cases done
  | ok selection =>
    obtain ⟨table, heap, found⟩ := selection
    obtain ⟨schema, named, handled, chosen⟩ := deletion_eq_ok selected
    obtain ⟨sound, same⟩ := settled.handle_sound handled
    obtain ⟨readable, rfl⟩ := candidates_eq_ok same chosen
    obtain ⟨deleted, left⟩ := deleteAll_matching sound readable takes (engine.meets schema condition)
    rw [runOn_delete disk selected, deleted] at done
    cases done
    exact ⟨table, schema, heap, _, _, named, handled, readable.scanWithIds_eq, rfl, left,
      congrArg (Report.countMessage "Deleted") List.count_replicate_self⟩

theorem updatesMatching
    (done : (update target columns values condition).runOn (engine, disk) = (.ok answer, next, after)) :
    UpdatesMatching target columns values condition engine disk answer next after := by
  cases revised : engine.revision target columns values condition with
  | error error =>
    rw [runOn_update_rejected disk revised] at done
    cases done
  | ok revision =>
    obtain ⟨table, heap, visits⟩ := revision
    obtain ⟨schema, set, found, named, handled, assigned, chosen, each⟩ := revision_eq_ok revised
    obtain ⟨sound, same⟩ := settled.handle_sound handled
    obtain ⟨readable, rfl⟩ := candidates_eq_ok same chosen
    rw [mapM_revise, Outcome.map_eq_ok_iff] at each
    obtain ⟨_, _, marked⟩ := each
    have renews : ∀ entry ∈ heap.rows,
        SetsColumns schema columns values entry.2 (assign entry.2 set) := by
      intro entry member
      have admits := heap.admits_of_mem_rows member
      rw [same] at admits
      exact setsColumns_assign assigned admits.length_eq
    obtain ⟨exchanged, rescanned, ids, rescans, relocates⟩ :=
      exchangeAll_matching sound readable takes (revisable_of_revision revised) (assign · set)
        marked.symm renews
    have visited : visits.map Prod.fst =
        (heap.rows.filter fun entry => engine.meets schema condition entry.2).map Prod.fst := by
      rw [← marked, List.map_map]
      rfl
    have scanned := readable.scanWithIds_eq
    rw [runOn_update disk revised, exchanged] at done
    cases done
    refine ⟨table, schema, heap, _, _, rescanned, ids, visits, named, handled, scanned, rfl, rescans,
      relocates, ?answer, Prod.ext exchanged rfl, visited, fun id member again => ?_⟩
    case answer => rw [← marked, List.length_map, List.countP_eq_length_filter]
    -- an address that is visited has a row before the update, as no new one has
    rw [visited] at again
    obtain ⟨bytes, present⟩ := (HeapFile.mem_map_fst_of_scanWithIds scanned id).mp
      ((List.filter_sublist.map Prod.fst).subset again)
    cases (relocates.unused id member heap (.now sound.ordered)).symm.trans present

end

/-- On every engine that is reached on a disk that takes all writes, a deletion takes away the rows that meet
its condition and no others, and an update moves these rows to addresses that no row of the table has ever
had, with the columns set. All other rows stay as they are, where they are and in their order. The answer
counts the rows that met the condition before the statement, and an update visits no others: those that it
has stored are not among them. -/
theorem addresses_matching (reached : Reachable settings (some engine) disk) :
    (∀ target condition answer next after,
      (execute (.delete target condition)).runOn (engine, disk) = (.ok answer, next, after) →
      DeletesMatching target condition engine answer next) ∧
    ∀ target columns values condition answer next after,
      (execute (.update target columns values condition)).runOn (engine, disk) =
        (.ok answer, next, after) →
      UpdatesMatching target columns values condition engine disk answer next after := by
  obtain ⟨settled, ready⟩ := reached.settled
  have settled := settled engine rfl
  exact ⟨fun _ _ _ _ _ done => deletesMatching settled ready.takes done,
    fun _ _ _ _ _ _ _ done => updatesMatching settled ready.takes done⟩

def texts : Schema := ⟨"t", [.ofType "a" .text]⟩

/-- The texts that are among the texts of the table. -/
def amongTexts : Expr := .inSelect (.column none "a") ⟨[.all], .table "t" none, none⟩

/-- A database in memory with a single text. -/
def texted : Engine × Disk := following (withTexts, .empty) (.insert "t" [[.literal (.string "one")]])

theorem reachable_texted : Reachable .inMemory (some texted.1) texted.2 :=
  .executed withTexts .empty (.insert "t" [[.literal (.string "one")]]) _ _ _ reachable_withTexts rfl

theorem lists_texted : texted.1.Lists texts [[.text "one"]] := by
  have fits : ∀ row ∈ [[Value.text "one"]],
      ∃ bytes, Row.encode texts row = .ok bytes ∧ bytes.length ≤ maxRowSize := by
    rintro row (_ | ⟨_, ⟨⟩⟩)
    exact ⟨_, by with_unfolding_all rfl, by decide⟩
  have built : [[Expr.literal (.string "one")]].mapM (buildRow texts) = .ok [[.text "one"]] := by
    with_unfolding_all rfl
  have empty : withTexts.Lists texts [] := lists_nil handle_withTexts
  exact (empty.insert built fits fun _ => rfl).1

/-- The one text is among the texts of the table. -/
theorem candidates_amongTexts (lists : engine.Lists texts [[.text "one"]]) :
    ∃ heap id, engine.handle "t" = .ok (texts, heap) ∧ heap.Sound ∧ heap.schema = texts ∧
      heap.rowAt? id = some [.text "one"] ∧
      engine.candidates texts heap (some amongTexts) = .ok [(id, [.text "one"])] := by
  obtain ⟨held, perm, scanned⟩ := lists.scanTable none
  cases List.perm_singleton.mp perm
  have answered : engine.run ⟨[.all], .table "t" none, none⟩ = .ok ⟨texts, [[.text "one"]]⟩ := by
    have always : (engine.compileWhere · none) = fun _ => .ok .always :=
      funext fun schema => compileWhere.eq_1 engine schema
    rw [run]
    simp only [always]
    exact congrArg (· >>= listed [.all]) scanned
  have compiled : engine.compileWhere texts (some amongTexts) = .ok (.isIn 0 [.text "one"]) := by
    have column : texts.columnOf (.column none "a") = .ok 0 :=
      Schema.columnOf_of_named? (by decide +kernel)
    rw [compileWhere, amongTexts, compile, column]
    simp only [liftEval, answered, bind, Except.bind, pure, Except.pure]
    with_unfolding_all rfl
  obtain ⟨heap, handled, sound, same, readable, rows⟩ := lists
  obtain ⟨⟨id, row⟩, found, rfl⟩ := List.map_eq_singleton_iff.mp (List.perm_singleton.mp rows)
  refine ⟨heap, id, handled, sound, same, (heap.mem_rows _ _).mp ?_, ?_⟩
  · rw [found]
    exact List.mem_singleton_self _
  · have accepted := readable.scanWhere_eq EngineError.storage fun row =>
      ((Predicate.isIn 0 [.text "one"]).test row).mapError .eval
    rw [found] at accepted
    rw [candidates, compiled]
    exact accepted

/-- Either statement is about the one text. -/
theorem answers_amongTexts (lists : engine.Lists texts [[.text "one"]])
    (takes : ∀ write, disk.refuses write = false) :
    (∃ next after, (execute (.delete (.table "t" none) (some amongTexts))).runOn (engine, disk) =
      (.ok "Deleted 1 row.", next, after)) ∧
    ∃ next after, (execute (.update (.table "t" none) ["a"] [.literal (.string "two")]
      (some amongTexts))).runOn (engine, disk) = (.ok "Updated 1 row.", next, after) := by
  obtain ⟨heap, id, handled, sound, same, present, selected⟩ := candidates_amongTexts lists
  constructor
  · have selection : engine.deletion (.table "t" none) (some amongTexts) =
        .ok ("t", heap, [(id, [.text "one"])]) := by
      simp only [deletion, Source.targetTable, handled, selected, bind, Except.bind, pure, Except.pure]
    have deleted := (HeapFile.rows_deleteAll sound takes [(id, [.text "one"])] (List.nodup_singleton _)
      fun entry member => by rw [List.mem_singleton.mp member, present]).1
    have shown : Report.countMessage "Deleted" 1 = "Deleted 1 row." := by decide +kernel
    rw [execute, runOn_delete disk selection, deleted, ← shown]
    exact ⟨_, _, rfl⟩
  · have assigned : assignments texts ["a"] [.literal (.string "two")] = .ok [(0, .text "two")] := by
      with_unfolding_all rfl
    have encoded : ∃ bytes, heap.encode [.text "two"] = .ok bytes := by
      have spelled : ∃ bytes, Row.encode texts [.text "two"] = .ok bytes ∧ bytes.length ≤ maxRowSize :=
        ⟨_, by with_unfolding_all rfl, by decide⟩
      rw [← same] at spelled
      simpa only [HeapFile.encode_eq_ok_iff] using spelled
    have revised : revise heap [(0, .text "two")] id [.text "one"] = .ok (id, [.text "two"]) := by
      obtain ⟨bytes, taken⟩ := encoded
      change (do ((do let _ ← heap.encode [.text "two"]).mapError EngineError.storage); _) = _
      rw [taken]
      rfl
    have revision_eq : engine.revision (.table "t" none) ["a"] [.literal (.string "two")]
        (some amongTexts) = .ok ("t", heap, [(id, [.text "two"])]) := by
      simp only [revision, Source.targetTable, handled, assigned, selected, bind, Except.bind]
      rw [Outcome.mapM_cons, revised]
      rfl
    have exchanged := (HeapFile.rows_exchangeAll sound takes [(id, [.text "two"])]
      (List.nodup_singleton _) (List.forall_mem_singleton.mpr ⟨_, present⟩)
      (List.forall_mem_singleton.mpr encoded)).1
    have shown : Report.countMessage "Updated" 1 = "Updated 1 row." := by decide +kernel
    rw [execute, runOn_update disk revision_eq, exchanged, ← shown]
    exact ⟨_, _, rfl⟩

/-- A row that a sub-query on its own table finds is deleted, or updated. -/
theorem addresses_matching_texted : Reachable .inMemory (some texted.1) texted.2 ∧
    (∃ next, DeletesMatching (.table "t" none) (some amongTexts) texted.1 "Deleted 1 row." next) ∧
    ∃ next after, UpdatesMatching (.table "t" none) ["a"] [.literal (.string "two")] (some amongTexts)
      texted.1 texted.2 "Updated 1 row." next after := by
  obtain ⟨⟨next, after, deleted⟩, ⟨other, later, updated⟩⟩ :=
    answers_amongTexts lists_texted reachable_texted.settled.2.takes
  obtain ⟨deletes, updates⟩ := addresses_matching reachable_texted
  exact ⟨reachable_texted, ⟨next, deletes _ _ _ _ _ deleted⟩,
    ⟨other, later, updates _ _ _ _ _ _ _ updated⟩⟩

end Engine

end RowStore
