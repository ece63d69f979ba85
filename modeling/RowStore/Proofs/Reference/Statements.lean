import RowStore.Proofs.Heap.Sweeping
import RowStore.Proofs.Reference.Represents

/-!
Statements about rows, run by an engine that keeps the tables of a store. They succeed exactly if they do
for the store, and the engine then keeps the tables that the store has.
-/

namespace RowStore

namespace HeapFile

variable {heap next : HeapFile} {relation : Relation} {disk after : Disk}
  {result : Except StorageError (List Bool)} {exchanged : Except StorageError Unit}

/-- Deleting the rows that are accepted leaves the others. -/
theorem Carries.deleteAll (carries : heap.Carries relation) (sound : heap.Sound)
    (takes : ∀ write, disk.refuses write = false) (accepts : Row → Bool)
    (ran : (HeapFile.deleteAll (heap.rows.filter fun entry => accepts entry.2)).runOn (heap, disk) =
      (result, next, after)) :
    (∃ answers, result = .ok answers) ∧
      (next.rows.map Prod.snd).Perm (relation.rows.filter fun row => !accepts row) := by
  have there : ∀ entry ∈ heap.rows.filter fun entry => accepts entry.2,
      heap.rowAt? entry.1 = some entry.2 :=
    fun entry member => (heap.mem_rows _ _).mp (List.mem_filter.mp member).1
  obtain ⟨done, left⟩ := rows_deleteAll sound takes _ (heap.nodup_ids_filter _) there
  rw [ran] at done left
  rw [heap.filter_elsewhere] at left
  exact ⟨⟨_, done⟩, (left.map Prod.snd).trans (carries.filter_perm fun row => !accepts row)⟩

/-- Exchanging the rows that are accepted for images that fit leaves the others, and adds the images. -/
theorem Carries.exchangeAll (carries : heap.Carries relation) (sound : heap.Sound)
    (takes : ∀ write, disk.refuses write = false) (accepts : Row → Bool) (image : Row → Row)
    {revisions : List (RowId × Row)}
    (marked : revisions = (heap.rows.filter fun entry => accepts entry.2).map
      fun entry => (entry.1, image entry.2))
    (fit : ∀ entry ∈ revisions, heap.checkInsertable entry.2 = .ok ())
    (ran : (HeapFile.exchangeAll revisions).runOn (heap, disk) = (exchanged, next, after)) :
    exchanged = .ok () ∧ (next.rows.map Prod.snd).Perm
      ((relation.rows.filter accepts).map image ++ relation.rows.filter fun row => !accepts row) := by
  have ids : revisions.map Prod.fst =
      (heap.rows.filter fun entry => accepts entry.2).map Prod.fst := by
    rw [marked, List.map_map]
    rfl
  have images : revisions.map Prod.snd =
      ((heap.rows.filter fun entry => accepts entry.2).map Prod.snd).map image := by
    rw [marked, List.map_map, List.map_map]
    rfl
  have there : ∀ entry ∈ revisions, ∃ row, heap.rowAt? entry.1 = some row := by
    intro entry member
    rw [marked] at member
    obtain ⟨old, among, rfl⟩ := List.mem_map.mp member
    exact ⟨old.2, (heap.mem_rows _ _).mp (List.mem_filter.mp among).1⟩
  have distinct : (revisions.map Prod.fst).Nodup := by
    rw [ids]
    exact heap.nodup_ids_filter _
  obtain ⟨done, left⟩ := rows_exchangeAll sound takes revisions distinct there
    fun entry member => exists_encode_of_checkInsertable (fit entry member)
  rw [ran] at done left
  rw [ids, images, heap.filter_elsewhere] at left
  exact ⟨done, left.trans (((carries.filter_perm accepts).map image).append
    (carries.filter_perm fun row => !accepts row))⟩

end HeapFile

/-- Rows that all fit come to those of their table. -/
theorem Store.insert_eq_ok {store : Store} {relation : Relation} {table : String}
    {rows : List (List Expr)} {built : List Row} (present : store (Text.fold table) = some relation)
    (converted : rows.mapM (buildRow relation.schema) = .ok built)
    (fit : ∀ row ∈ built, Store.checkFits relation.schema row = .ok ()) :
    store.insert table rows =
      .ok (store.enter table (some { relation with rows := built ++ relation.rows })) := by
  rw [Store.insert, (Store.table_eq_ok_iff _ _ _).mpr present]
  simp only [converted, bind, Except.bind]
  cases checked : built.mapM (Store.checkFits relation.schema) with
  | ok _ => rfl
  | error error =>
    obtain ⟨row, member, large⟩ := Outcome.exists_of_mapM_eq_error checked
    cases (fit row member).symm.trans large

namespace Engine

variable {directory table : String} {store : Store} {engine : Engine} {disk : Disk}

/-- What a statement makes of an engine and of the store that it keeps: both succeed or both fail, and
the engine then keeps what the store is. -/
inductive Follows (directory : String) (store : Store) :
    Except EngineError String × Engine × Disk → Except EngineError Store → Prop where
  | succeeded (answer : String) (next : Store) (engine : Engine) (disk : Disk)
      (represents : Represents directory next engine disk) :
      Follows directory store (.ok answer, engine, disk) (.ok next)
  | failed (error fault : EngineError) (engine : Engine) (disk : Disk)
      (represents : Represents directory store engine disk) :
      Follows directory store (.error error, engine, disk) (.error fault)

namespace Represents

theorem heap_sound (represents : Represents directory store engine disk) (key : String)
    {heap : HeapFile} (given : engine.heaps.heaps[key]? = some heap) : heap.Sound := by
  cases present : store key with
  | none =>
    rw [represents.closed key present] at given
    cases given
  | some relation =>
    obtain ⟨_, same, houses⟩ := represents.held key relation present
    cases given.symm.trans same
    obtain ⟨_, mirrors⟩ := houses.mirrors
    exact mirrors.sound

theorem handled (represents : Represents directory store engine disk) {schema : Schema}
    {heap : HeapFile} (handled : engine.handle table = .ok (schema, heap)) :
    ∃ relation, store (Text.fold table) = some relation ∧ relation.schema = schema ∧
      engine.heaps.get? table = some heap ∧ heap.Sound ∧ heap.Carries relation := by
  obtain ⟨known, given⟩ := (handle_eq_ok_iff _ _ _ _).mp handled
  rw [represents.get?_catalog, Option.map_eq_some_iff] at known
  obtain ⟨relation, present, rfl⟩ := known
  obtain ⟨_, same, houses⟩ := represents.held _ relation present
  cases given.symm.trans same
  exact ⟨relation, present, rfl, given, represents.heap_sound _ given, houses.carries⟩

/-- An INSERT that succeeds adds its converted rows. -/
theorem insert (represents : Represents directory store engine disk) (rows : List (List Expr))
    (succeeds : ((Engine.insert table rows).runOn (engine, disk)).1.isOk) :
    Follows directory store ((Engine.insert table rows).runOn (engine, disk))
      (store.insert table rows) := by
  have inserts := insertsRows rows disk fun heap => represents.heap_sound (Text.fold table)
  generalize (Engine.insert table rows).runOn (engine, disk) = outcome at inserts succeeds ⊢
  obtain ⟨result, next, after⟩ := outcome
  cases inserts with
  | unknown => cases succeeds
  | rejected => cases succeeds
  | worked schema heap built result next after handled converted stores =>
    have stored : result = .ok () := by
      cases result with
      | ok _ => rfl
      | error => cases succeeds
    obtain ⟨relation, present, rfl, given, sound, carries⟩ := represents.handled handled
    have encoded := (stores.result_eq_ok_iff represents.tidy.takes).mp stored
    have fit : ∀ row ∈ built, Store.checkFits relation.schema row = .ok () := by
      intro row member
      obtain ⟨bytes, encoded⟩ := encoded row member
      have agrees := agrees_checkInsertable carries.schema_eq row
      rw [HeapFile.checkInsertable, encoded] at agrees
      generalize Store.checkFits relation.schema row = verdict at agrees
      cases agrees
      rfl
    have rows_perm := (stores.rows_perm sound stored).trans (carries.rows_perm.append_left built)
    rw [stored, Store.insert_eq_ok present converted fit]
    exact .succeeded _ _ _ _ (represents.exchanged present given stores.calls rows_perm)

/-- A DELETE takes exactly the rows that meet its condition. -/
theorem delete (represents : Represents directory store engine disk) (target : Source)
    (condition : Option Expr) :
    Follows directory store ((Engine.delete target condition).runOn (engine, disk))
      (store.delete target condition) := by
  have planned := represents.shows.deletion target condition
  have deletes := deletesRows target condition engine disk
  generalize (Engine.delete target condition).runOn (engine, disk) = outcome at deletes ⊢
  obtain ⟨result, next, after⟩ := outcome
  generalize store.delete target condition = changed at planned ⊢
  cases deletes with
  | rejected error failed =>
    rw [failed] at planned
    cases planned with
    | failed _ fault => exact .failed error fault _ _ represents
  | worked table schema heap found result next after named handled selected ran =>
    have plan : engine.deletion target condition = .ok (table, heap, found) := by
      simp [deletion, named, handled, selected, bind, Except.bind, pure, Except.pure]
    rw [plan] at planned
    cases planned with
    | answered _ changed held =>
      obtain ⟨relation, predicate, present, carries, marked, rfl⟩ := held
      obtain ⟨_, _, _, given, sound, _⟩ := represents.handled handled
      simp only at marked present carries
      have calls := HeapFile.calls_deleteAll sound disk found
      rw [ran] at calls
      subst marked
      obtain ⟨⟨answers, rfl⟩, rows_perm⟩ := carries.deleteAll sound represents.tidy.takes _ ran
      exact .succeeded _ _ _ _ (represents.exchanged present given calls rows_perm)

/-- An UPDATE exchanges exactly the rows that meet its condition for their images. -/
theorem update (represents : Represents directory store engine disk) (target : Source)
    (columns : List String) (values : List Expr) (condition : Option Expr) :
    Follows directory store
      ((Engine.update target columns values condition).runOn (engine, disk))
      (store.update target columns values condition) := by
  have planned := represents.shows.revision target columns values condition
  have updates := updatesRows target columns values condition engine disk
  generalize (Engine.update target columns values condition).runOn (engine, disk) = outcome
    at updates ⊢
  obtain ⟨result, next, after⟩ := outcome
  generalize store.update target columns values condition = changed at planned ⊢
  cases updates with
  | rejected error failed =>
    rw [failed] at planned
    cases planned with
    | failed _ fault => exact .failed error fault _ _ represents
  | worked table schema heap set found revisions result next after named handled assigned selected
      revised ran =>
    have plan : engine.revision target columns values condition = .ok (table, heap, revisions) := by
      simp [revision, named, handled, assigned, selected, revised, bind, Except.bind, pure,
        Except.pure]
    rw [plan] at planned
    cases planned with
    | answered _ changed held =>
      obtain ⟨relation, predicate, set, present, carries, marked, fit, rfl⟩ := held
      obtain ⟨_, _, _, given, sound, _⟩ := represents.handled handled
      simp only at marked present carries fit
      have calls := HeapFile.calls_exchangeAll sound disk revisions
      rw [ran] at calls
      obtain ⟨rfl, rows_perm⟩ :=
        carries.exchangeAll sound represents.tidy.takes _ (Row.image set) marked fit ran
      exact .succeeded _ _ _ _ (represents.exchanged present given calls rows_perm)

end Represents

end Engine

end RowStore
