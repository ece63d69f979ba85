import RowStore.Proofs.Engine.Placed
import RowStore.Proofs.Reference.Runs

/-!
Tables beside each other. In memory a statement changes no table but its own. On the disk that is so as
well, unless the paths of two tables lead to one place: creating the one then empties the file of the other.
-/

namespace RowStore

open Disk (FewPagesAt Touches Unshared)
open HeapFile (Backed)

/-- A statement that is about the table of a folded name, or about one whose file stands elsewhere. -/
def Settings.SetsApart (settings : Settings) (key : String) (statement : Statement) : Prop :=
  ∀ table, statement.subject? = some table →
    Text.fold table = key ∨ settings.tablePlace? (Text.fold table) ≠ settings.tablePlace? key

namespace Engine

variable {settings : Settings} {engine next : Engine} {disk after start : Disk} {key path table : String}
  {state moved : Engine × Disk} {allowed : Statement → Disk → Prop} {session : Option Engine}

/-- A heap goes on to be backed by its file, whether moves are about its table or about one with a file
elsewhere. -/
theorem Moves.backed (moves : Moves table state moved) (placed : state.1.Placed settings state.2)
    (located : settings.tablePath? key = some path)
    (elsewhere : Disk.locate path ∉ settings.catalogPlaces)
    (apart : Text.fold table = key ∨ Disk.locate path ∉ settings.tablePlaces (Text.fold table))
    (backed : ∀ heap, state.1.heaps.heaps[key]? = some heap →
      ∃ number, Backed heap ⟨path, number⟩ state.2) :
    ∀ heap, moved.1.heaps.heaps[key]? = some heap → ∃ number, Backed heap ⟨path, number⟩ moved.2 := by
  by_cases own : key = Text.fold table
  case neg =>
    intro heap present
    obtain ⟨number, backed⟩ := backed heap ((moves.others own).2.symm.trans present)
    refine ⟨number, backed.touched (moves.placed placed).2 ?_⟩
    rintro (place | place)
    · exact apart.resolve_left (Ne.symm own) place
    · exact elsewhere place
  case pos =>
    have written {catalog : Catalog} {disk after : Disk} (persists : Catalog.Persists catalog disk after)
        (path_eq : catalog.path = settings.catalogPath?) (unshared : disk.Unshared) {heap : HeapFile}
        (backed : ∃ number, Backed heap ⟨path, number⟩ disk) :
        ∃ number, Backed heap ⟨path, number⟩ after := by
      obtain ⟨number, backed⟩ := backed
      exact ⟨number, backed.touched (touches_of_persists persists path_eq unshared).2 elsewhere⟩
    cases moves with
    | entered engine disk schema after named accepted persists =>
      exact fun heap present =>
        written persists placed.path_eq placed.heaps.unshared (backed heap present)
    | removed engine disk after persists =>
      exact fun heap present =>
        written persists placed.path_eq placed.heaps.unshared (backed heap present)
    | created engine disk schema result heaps after named creates =>
      intro heap present
      have path_eq := placed.heaps.path?_eq table
      rw [← own, located] at path_eq
      cases creates with
      | known => exact backed heap present
      | inMemory absent nowhere =>
        rw [named, path_eq] at nowhere
        cases nowhere
      | failed path' fault after absent somewhere opens =>
        cases opens with
        | failed _ _ furnished =>
          obtain ⟨number, backed⟩ := backed heap present
          exact ⟨number, backed.spared furnished.spares⟩
      | created path' number after absent somewhere opens =>
        rw [named, path_eq] at somewhere
        cases somewhere
        obtain rfl : _ = heap := Option.some.inj
          (((HeapRegistry.getElem?_insert _ _ _ key).trans (if_pos (named ▸ own))).symm.trans present)
        exact ⟨number, HeapFile.backed_of_opens placed.heaps.unshared.intact opens schema⟩
    | dropped engine disk result heaps after drops =>
      intro heap present
      have gone := (drops.getElem?_eq key).trans (if_pos own)
      cases gone.symm.trans present
    | worked engine disk heap next after held stays =>
      intro found present
      obtain rfl : next = found := Option.some.inj
        (((HeapRegistry.getElem?_insert _ _ _ key).trans (if_pos own)).symm.trans present)
      obtain ⟨number, backed⟩ := backed heap (own ▸ held)
      exact ⟨number, stays.backed _ backed⟩

namespace MovesTo

theorem placed (moves : MovesTo table state moved) (placed : state.1.Placed settings state.2) :
    moved.1.Placed settings moved.2 ∧
      Touches (settings.tablePlaces (Text.fold table) ∪ settings.catalogPlaces) state.2 moved.2 := by
  induction moves with
  | refl => exact ⟨placed, .refl _ _⟩
  | tail _ last ih =>
    obtain ⟨placedLast, touches⟩ := last.placed ih.1
    exact ⟨placedLast, ih.2.trans touches⟩

theorem others (moves : MovesTo table state moved) (other : key ≠ Text.fold table) :
    moved.1.catalog.tables[key]? = state.1.catalog.tables[key]? ∧
      moved.1.heaps.heaps[key]? = state.1.heaps.heaps[key]? := by
  induction moves with
  | refl => exact ⟨rfl, rfl⟩
  | tail _ last ih =>
    obtain ⟨catalog, heaps⟩ := last.others other
    exact ⟨catalog.trans ih.1, heaps.trans ih.2⟩

theorem lists {schema : Schema} (moves : MovesTo table state moved)
    (placed : state.1.Placed settings state.2) (other : key ≠ Text.fold table)
    (apart : ∀ location ∈ settings.catalogPlaces, location ∉ settings.tablePlaces (Text.fold table))
    (known : state.1.catalog.tables[key]? = some schema)
    (lists : Catalog.Lists settings.catalogPath? key schema state.2) :
    Catalog.Lists settings.catalogPath? key schema moved.2 := by
  induction moves with
  | refl => exact lists
  | tail first last ih =>
    have still := (MovesTo.others first other).1.trans known
    exact last.lists (MovesTo.placed first placed).1 other apart still ih

theorem backed (moves : MovesTo table state moved) (placed : state.1.Placed settings state.2)
    (located : settings.tablePath? key = some path)
    (elsewhere : Disk.locate path ∉ settings.catalogPlaces)
    (apart : Text.fold table = key ∨ Disk.locate path ∉ settings.tablePlaces (Text.fold table))
    (backed : ∀ heap, state.1.heaps.heaps[key]? = some heap →
      ∃ number, Backed heap ⟨path, number⟩ state.2) :
    ∀ heap, moved.1.heaps.heaps[key]? = some heap → ∃ number, Backed heap ⟨path, number⟩ moved.2 := by
  induction moves with
  | refl => exact backed
  | tail first last ih => exact last.backed (MovesTo.placed first placed).1 located elsewhere apart ih

end MovesTo

/-- What a database reaches from a disk, in any number of sessions with any statements that are allowed,
by what they are and by the disk they leave. Which writes the disk refuses may change at any time. -/
inductive Reaches (settings : Settings) (allowed : Statement → Disk → Prop) (start : Disk) :
    Option Engine → Disk → Prop where
  | start : Reaches settings allowed start none start
  | opened (session : Option Engine) (disk : Disk) (result : Except EngineError Engine) (after : Disk)
      (reached : Reaches settings allowed start session disk)
      (ran : (openWith settings).runOn disk = (result, after)) :
      Reaches settings allowed start result.toOption after
  | executed (engine : Engine) (disk : Disk) (statement : Statement)
      (result : Except EngineError String) (next : Engine) (after : Disk)
      (reached : Reaches settings allowed start (some engine) disk)
      (ran : (execute statement).runOn (engine, disk) = (result, next, after))
      (permitted : allowed statement after) : Reaches settings allowed start (some next) after
  | refusing (session : Option Engine) (disk : Disk) (refuses : Nat → Bool)
      (reached : Reaches settings allowed start session disk) :
      Reaches settings allowed start session { disk with refuses }

theorem placed_execute (placed : engine.Placed settings disk) (statement : Statement) :
    ((execute statement).runOn (engine, disk)).2.1.Placed settings
      ((execute statement).runOn (engine, disk)).2.2 := by
  rcases movesTo_execute statement (engine, disk) with same | ⟨table, _, moves⟩
  · rw [same]
    exact placed
  · exact (moves.placed placed).1

theorem placed_refusing (placed : engine.Placed settings disk) (refuses : Nat → Bool) :
    engine.Placed settings { disk with refuses } := by
  have unshared : Unshared { disk with refuses } :=
    placed.heaps.unshared.of_fewer (Nat.le_refl _) fun _ _ => id
  have touches : Touches ∅ disk { disk with refuses } := Disk.touches_refuses disk refuses
  exact ⟨placed.path_eq, placed.lawful, placed.heaps.touched touches unshared⟩

/-- Every engine that is reached has its files in place. -/
theorem Reaches.placed (unshared : start.Unshared)
    (reached : Reaches settings allowed start session disk) :
    disk.Unshared ∧ ∀ engine, session = some engine → engine.Placed settings disk := by
  induction reached with
  | start => exact ⟨unshared, fun engine never => by cases never⟩
  | opened session disk result after _ ran ih =>
    obtain ⟨⟨unshared, _⟩, opened, _⟩ := placed_of_openWith ih.1 ran
    refine ⟨unshared, fun engine same => opened engine ?_⟩
    cases result with
    | error => cases same
    | ok found =>
      cases same
      rfl
  | executed engine disk statement result next after _ ran _ ih =>
    have placed := placed_execute (ih.2 engine rfl) statement
    rw [ran] at placed
    exact ⟨placed.heaps.unshared, fun other same => by cases same; exact placed⟩
  | refusing session disk refuses _ ih =>
    refine ⟨ih.1.of_fewer (Nat.le_refl _) fun _ _ => id, fun engine same => ?_⟩
    exact placed_refusing (ih.2 engine same) refuses

theorem locate_notMem_tablePlaces {other : String} (located : settings.tablePath? key = some path)
    (apart : settings.tablePlace? other ≠ settings.tablePlace? key) :
    Disk.locate path ∉ settings.tablePlaces other :=
  fun place => apart (place.trans (congrArg (Option.map Disk.locate) located).symm)

theorem locate_notMem_catalogPlaces (located : settings.tablePath? key = some path)
    (apart : settings.tablePlace? key ≠ settings.catalogPlace?) :
    Disk.locate path ∉ settings.catalogPlaces :=
  fun place => apart ((congrArg (Option.map Disk.locate) located).trans (Eq.symm place))

/-- A table whose file has a place of its own stays in both registries or in neither, since its file can
always be removed. -/
theorem agrees_execute (agrees : engine.AgreesOn key) (statement : Statement)
    (backed : ∀ heap, engine.heaps.heaps[key]? = some heap → ∃ number, Backed heap ⟨path, number⟩ disk) :
    ((execute statement).runOn (engine, disk)).2.1.AgreesOn key := by
  refine agrees.registers ?_ (registers engine ⟨statement, disk⟩)
  rintro ⟨table, schema, heap, file, fault, _, rfl, handled, somewhere, failed, _⟩
  obtain ⟨number, backed⟩ := backed heap ((handle_eq_ok_iff _ _ _ _).mp handled).2
  cases somewhere.symm.trans backed.backing_eq
  rw [backed.holds.runOn_removeFile] at failed
  cases failed

theorem backed_execute (placed : engine.Placed settings disk)
    (located : settings.tablePath? key = some path)
    (elsewhere : Disk.locate path ∉ settings.catalogPlaces) {statement : Statement}
    (apart : settings.SetsApart key statement)
    (backed : ∀ heap, engine.heaps.heaps[key]? = some heap → ∃ number, Backed heap ⟨path, number⟩ disk) :
    ∀ heap, ((execute statement).runOn (engine, disk)).2.1.heaps.heaps[key]? = some heap →
      ∃ number, Backed heap ⟨path, number⟩ ((execute statement).runOn (engine, disk)).2.2 := by
  rcases movesTo_execute statement (engine, disk) with same | ⟨table, named, moves⟩
  · rw [same]
    exact backed
  · exact moves.backed placed located elsewhere
      ((apart table named).imp id (locate_notMem_tablePlaces located)) backed

/-- As long as no other table has its file at the place of a table, the registries agree on the table and
its heap is backed by its file. -/
theorem Reaches.inSync (located : settings.tablePath? key = some path)
    (elsewhere : Disk.locate path ∉ settings.catalogPlaces) (unshared : start.Unshared)
    (few : start.FewPagesAt (Disk.locate path))
    (apart : ∀ statement left, allowed statement left →
      settings.SetsApart key statement ∧ left.FewPagesAt (Disk.locate path))
    (reached : Reaches settings allowed start session disk) :
    disk.FewPagesAt (Disk.locate path) ∧ ∀ engine, session = some engine →
      engine.AgreesOn key ∧ engine.heaps.InSync key path disk := by
  induction reached with
  | start => exact ⟨few, fun engine never => by cases never⟩
  | opened session disk result after reached ran ih =>
    obtain ⟨_, _, inSync⟩ := placed_of_openWith (reached.placed unshared).1 ran
    obtain ⟨few, inSync⟩ := inSync key path located ih.1
    refine ⟨few, fun engine same => ?_⟩
    cases result with
    | error => cases same
    | ok found =>
      cases same
      exact ⟨(Opened.onDisk settings disk engine after ran).agrees key, inSync engine rfl⟩
  | executed engine disk statement result next after reached ran permitted ih =>
    obtain ⟨agrees, inSync⟩ := ih.2 engine rfl
    obtain ⟨apart, few⟩ := apart statement after permitted
    have agrees := agrees_execute agrees statement inSync.backed
    have backed := backed_execute ((reached.placed unshared).2 engine rfl) located elsewhere apart
      inSync.backed
    rw [ran] at agrees backed
    exact ⟨few, fun other same => by cases same; exact ⟨agrees, few, backed⟩⟩
  | refusing session disk refuses reached ih =>
    refine ⟨ih.1, fun engine same => ?_⟩
    obtain ⟨agrees, few, backed⟩ := ih.2 engine same
    refine ⟨agrees, few, fun heap present => ?_⟩
    obtain ⟨number, backed⟩ := backed heap present
    have touches : Touches ∅ disk { disk with refuses } := Disk.touches_refuses disk refuses
    exact ⟨number, backed.touched touches (Set.notMem_empty _)⟩

/-- What a statement leaves of a table: its schema, its heap and its file, and so what is there of it when
the database is opened again. -/
structure Isolated (settings : Settings) (key path : String) (schema : Schema) (heap : HeapFile)
    (disk : Disk) (next : Engine) (after : Disk) : Prop where
  known : next.catalog.tables[key]? = some schema
  present : next.heaps.heaps[key]? = some heap
  file_eq : after.readFile path = disk.readFile path
  open_eq : (HeapFile.openAt schema path).runOn after = (.ok heap, after)
  /-- If the file of the catalog listed the table before, it is there in the next session. -/
  reopened : Catalog.Lists settings.catalogPath? key schema disk →
    ∀ opened later, (openWith settings).runOn after = (.ok opened, later) →
      opened.catalog.tables[key]? = some schema ∧ opened.heaps.heaps[key]? = some heap

/-- A heap that is backed by its file is there again when a database is opened that lists its table. -/
theorem reopened_of_backed {opened : Engine} {later : Disk} {schema : Schema} {heap : HeapFile}
    {number : Nat} (unshared : disk.Unshared) (located : settings.tablePath? key = some path)
    (few : disk.FewPagesAt (Disk.locate path)) (schema_eq : heap.schema = schema)
    (backed : Backed heap ⟨path, number⟩ disk)
    (lists : Catalog.Lists settings.catalogPath? key schema disk)
    (ran : (openWith settings).runOn disk = (.ok opened, later)) :
    opened.catalog.tables[key]? = some schema ∧ opened.heaps.heaps[key]? = some heap := by
  obtain ⟨⟨_, touches⟩, _, inSync⟩ := placed_of_openWith unshared ran
  obtain ⟨listed, read, known⟩ := lists
  have entry : opened.catalog.tables[key]? = some schema := by
    obtain ⟨catalog, _, _, found, _, rfl⟩ := openWith_eq_ok ran
    cases read.symm.trans found
    exact known
  have agrees := (Opened.onDisk settings disk opened later ran).agrees key
  obtain ⟨beside, held, same⟩ := Option.map_eq_some_iff.mp (agrees.symm.trans entry)
  obtain ⟨_, backedBeside⟩ := ((inSync key path located few).2 opened rfl).backed beside held
  have backed := backed.touched_free touches
  cases backed.holds.entry.symm.trans backedBeside.holds.entry
  obtain rfl := backed.eq_of_backed backedBeside (same.trans schema_eq.symm)
  exact ⟨entry, held⟩

/-- What holds of a table as long as its file is not touched, it keeps in its entry in the catalog, its heap
and the file of the catalog. -/
theorem isolated_of_touches {schema : Schema} {heap : HeapFile} {places : Set Location}
    (unshared : after.Unshared) (located : settings.tablePath? key = some path)
    (inSync : engine.heaps.InSync key path disk) (schema_eq : heap.schema = schema)
    (held : engine.heaps.heaps[key]? = some heap) (known : next.catalog.tables[key]? = some schema)
    (present : next.heaps.heaps[key]? = some heap) (touches : Touches places disk after)
    (elsewhere : Disk.locate path ∉ places)
    (lists : Catalog.Lists settings.catalogPath? key schema disk →
      Catalog.Lists settings.catalogPath? key schema after) :
    Isolated settings key path schema heap disk next after := by
  obtain ⟨number, backed⟩ := inSync.backed heap held
  have backedAfter := backed.touched touches elsewhere
  have few : heap.pages.length < UInt32.size := by
    rw [← backed.count_eq]
    exact inSync.few number backed.holds.entry
  constructor
  case known => exact known
  case present => exact present
  case file_eq =>
    have contents := touches.contents_eq _ _ elsewhere backed.holds.entry backed.known
    rw [Disk.readFile, Disk.readFile, backedAfter.holds.fileAt_eq, backed.holds.fileAt_eq]
    simp only [bind, Except.bind, contents]
  case open_eq =>
    rw [← schema_eq]
    exact backedAfter.runOn_openAt few
  case reopened =>
    intro listed opened later ran
    have fewAfter : after.FewPagesAt (Disk.locate path) := by
      intro other found
      cases backedAfter.holds.entry.symm.trans found
      rw [backedAfter.count_eq]
      exact few
    exact reopened_of_backed unshared located fewAfter schema_eq backedAfter (lists listed) ran

/-- A table that is created has an empty file, whatever was at its place. -/
theorem exists_empty_of_createsTable {specs : List ColumnSpec} {message : String} {location : Location}
    (placed : engine.Placed settings disk)
    (creates : CreatesTable table specs engine disk (.ok message) next after)
    (place : location ∈ settings.tablePlaces (Text.fold table)) :
    ∃ number, after.node? location = some (.file number) ∧ after.contents number = .empty := by
  generalize same : (Except.ok message : Except EngineError String) = outcome at creates
  cases creates with
  | rejected => cases same
  | takenBack => cases same
  | created schema middle heap heaps after named built accepted absent persists creates =>
    have unshared := (touches_of_persists persists placed.path_eq placed.heaps.unshared).1
    have place : (settings.tablePath? (Text.fold table)).map Disk.locate = some location := place
    rw [← placed.heaps.path?_eq, ← named] at place
    cases creates with
    | inMemory _ nowhere =>
      rw [nowhere] at place
      cases place
    | created path number after _ somewhere opens =>
      rw [somewhere] at place
      cases place
      obtain ⟨holds, _, empty⟩ := opens.holds unshared.intact
      exact ⟨number, holds.entry, empty rfl⟩

/-- A table whose file was emptied has no rows when the database is opened again. -/
theorem pages_eq_nil_of_emptied {opened : Engine} {later : Disk} {heap : HeapFile} {number : Nat}
    (unshared : disk.Unshared) (located : settings.tablePath? key = some path)
    (entry : disk.node? (Disk.locate path) = some (.file number))
    (emptied : disk.contents number = .empty)
    (ran : (openWith settings).runOn disk = (.ok opened, later))
    (held : opened.heaps.heaps[key]? = some heap) : heap.pages = [] := by
  have few : disk.FewPagesAt (Disk.locate path) := by
    intro other found
    cases entry.symm.trans found
    rw [emptied]
    exact (by decide : 0 / blockSize < UInt32.size)
  obtain ⟨⟨_, touches⟩, _, inSync⟩ := placed_of_openWith unshared ran
  obtain ⟨other, backed⟩ := ((inSync key path located few).2 opened rfl).backed heap held
  have taken : Disk.locate path ∉ disk.free := fun free => by cases entry.symm.trans free
  cases (touches.kept _ _ taken entry).symm.trans backed.holds.entry
  have count_eq := backed.count_eq
  rw [touches.contents_eq _ _ taken entry (unshared.intact _ _ entry), emptied] at count_eq
  exact List.length_eq_zero_iff.mp (count_eq.symm.trans (Nat.zero_div _))

/-- A statement about another table is not seen in the memory of a table. It is not seen in the file of the
table either, and so not in later sessions, if no statement was about a table with a file at the same place
and the catalog is elsewhere. A table that is created at the same place, though, leaves no rows of the
other one for later sessions. -/
theorem isolated_unless_shared (unshared : start.Unshared)
    (reached : Reaches settings allowed start (some engine) disk) {statement : Statement}
    {result : Except EngineError String}
    (ran : (execute statement).runOn (engine, disk) = (result, next, after)) (key : String)
    (other : ∀ table, statement.subject? = some table → key ≠ Text.fold table) :
    (next.catalog.tables[key]? = engine.catalog.tables[key]? ∧
      next.heaps.heaps[key]? = engine.heaps.heaps[key]?) ∧
    (∀ path schema, settings.tablePath? key = some path → engine.catalog.tables[key]? = some schema →
      start.FewPagesAt (Disk.locate path) → settings.tablePlace? key ≠ settings.catalogPlace? →
      (∀ earlier left, allowed earlier left →
        settings.SetsApart key earlier ∧ left.FewPagesAt (Disk.locate path)) →
      (∀ table, statement.subject? = some table →
        settings.tablePlace? (Text.fold table) ≠ settings.tablePlace? key ∧
          settings.tablePlace? (Text.fold table) ≠ settings.catalogPlace?) →
      ∃ heap, engine.heaps.heaps[key]? = some heap ∧
        Isolated settings key path schema heap disk next after) ∧
    ∀ table specs path, statement = .createTable table specs → result.isOk = true →
      settings.tablePath? key = some path →
      settings.tablePlace? (Text.fold table) = settings.tablePlace? key →
      ∀ opened later heap, (openWith settings).runOn after = (.ok opened, later) →
        opened.heaps.heaps[key]? = some heap → heap.pages = [] := by
  have placed := (reached.placed unshared).2 engine rfl
  have moves := movesTo_execute statement (engine, disk)
  have placedNext := placed_execute placed statement
  rw [ran] at moves placedNext
  refine ⟨?memory, fun path schema located known few catalogApart history apart => ?isolated,
    fun table specs path created done located shared opened later heap reopened held => ?emptied⟩
  case memory =>
    rcases moves with same | ⟨table, named, moves⟩
    · cases same
      exact ⟨rfl, rfl⟩
    · exact moves.others (other table named)
  case isolated =>
    have elsewhere := locate_notMem_catalogPlaces located catalogApart
    obtain ⟨_, inSync⟩ := reached.inSync located elsewhere unshared few history
    obtain ⟨agrees, inSync⟩ := inSync engine rfl
    obtain ⟨heap, held, schema_eq⟩ := Option.map_eq_some_iff.mp (agrees.symm.trans known)
    refine ⟨heap, held, ?_⟩
    have unsharedNext := placedNext.heaps.unshared
    rcases moves with same | ⟨table, named, moves⟩
    · cases same
      exact isolated_of_touches unsharedNext located inSync schema_eq held known held
        (Touches.refl ∅ disk) (Set.notMem_empty _) id
    · obtain ⟨entry_eq, heap_eq⟩ := moves.others (other table named)
      obtain ⟨apartTable, apartCatalog⟩ := apart table named
      refine isolated_of_touches unsharedNext located inSync schema_eq held (entry_eq.trans known)
        (heap_eq.trans held) (moves.placed placed).2 ?_
        (moves.lists placed (other table named) (fun location catalogued place => ?_) known)
      · rintro (place | place)
        · exact locate_notMem_tablePlaces located apartTable place
        · exact elsewhere place
      · exact apartCatalog (Eq.trans place (Eq.symm catalogued))
  case emptied =>
    subst created
    have creates := createsTable table specs engine disk
    rw [execute] at ran
    rw [ran] at creates
    cases result with
    | error => cases done
    | ok message =>
      have place : Disk.locate path ∈ settings.tablePlaces (Text.fold table) :=
        shared.trans (congrArg (Option.map Disk.locate) located)
      obtain ⟨number, entry, emptied⟩ := exists_empty_of_createsTable placed creates place
      exact pages_eq_nil_of_emptied placedNext.heaps.unshared located entry emptied reopened held

/-- A table with one column. -/
def creation (table : String) : Statement := .createTable table [⟨"a", "INT", none⟩]

/-- A database after a statement. -/
def following (state : Engine × Disk) (statement : Statement) : Engine × Disk :=
  ((execute statement).runOn state).2

-- For a state that is not known: to show it of a known one, the kernel would run the statement.
theorem runOn_eq_following (state : Engine × Disk) (statement : Statement) :
    (execute statement).runOn (state.1, state.2) =
      (((execute statement).runOn state).1, (following state statement).1,
        (following state statement).2) := rfl

/-- A new database once it has a table with a row. -/
def stocked : Engine × Disk :=
  following (following (vacant "db", .empty) (creation "t")) (.insert "t" [[.literal (.number "7")]])

/-- The table has its schema, its row, and a page in its file. -/
theorem held_stocked :
    stocked.1.catalog.tables["T"]? = some ⟨"t", [.ofType "a" .int]⟩ ∧
      (stocked.1.heaps.heaps["T"]?.map fun heap => heap.rows.map Prod.snd) = some [[.int 7]] ∧
      (stocked.2.readFile "db/T.dat").map List.length = .ok blockSize := by
  decide +kernel

theorem reaches_stocked
    (permitted : allowed (creation "t") (following (vacant "db", .empty) (creation "t")).2)
    (permittedInsert : allowed (.insert "t" [[.literal (.number "7")]]) stocked.2) :
    Reaches (.inDirectory "db") allowed .empty (some stocked.1) stocked.2 :=
  .executed _ _ _ _ _ _ (.executed _ _ _ _ _ _ (.opened none .empty _ _ .start runOn_openWith_empty)
    rfl permitted) rfl permittedInsert

/-- A table is not seen by another one that is created with a file of its own. -/
theorem isolated_unless_shared_beside :
    let allowed (statement : Statement) (left : Disk) : Prop :=
      (Settings.inDirectory "db").SetsApart "T" statement ∧ left.FewPagesAt (Disk.locate "db/T.dat")
    Disk.empty.Unshared ∧ Reaches (.inDirectory "db") allowed .empty (some stocked.1) stocked.2 ∧
      ∃ heap, stocked.1.heaps.heaps["T"]? = some heap ∧ heap.rows.map Prod.snd = [[.int 7]] ∧
        Isolated (.inDirectory "db") "T" "db/T.dat" ⟨"t", [.ofType "a" .int]⟩ heap stocked.2
          (following stocked (creation "s")).1 (following stocked (creation "s")).2 := by
  intro allowed
  have own {statement : Statement} (about : statement.subject? = some "t") :
      (Settings.inDirectory "db").SetsApart "T" statement := by
    intro table named
    cases about.symm.trans named
    exact .inl (by decide +kernel)
  have reached : Reaches (.inDirectory "db") allowed .empty (some stocked.1) stocked.2 :=
    reaches_stocked ⟨own rfl, by decide +kernel⟩ ⟨own rfl, by decide +kernel⟩
  have other : ∀ table, (creation "s").subject? = some table → "T" ≠ Text.fold table := by
    rintro _ ⟨⟩
    decide +kernel
  have isolated := isolated_unless_shared Disk.unshared_empty reached
    (runOn_eq_following stocked (creation "s")) "T" other
  obtain ⟨known, rows, _⟩ := held_stocked
  obtain ⟨heap, held, isolated⟩ := isolated.2.1 "db/T.dat" _ (by decide +kernel) known
    (by decide +kernel) (by decide +kernel) (fun _ _ permitted => permitted) (by
      rintro _ ⟨⟩
      decide +kernel)
  rw [held] at rows
  exact ⟨Disk.unshared_empty, reached, heap, held, Option.some.inj rows, isolated⟩

/-- A table whose path takes a detour to the file of another table can be created beside that one, and
then the other one has no rows in the next session. -/
theorem not_isolated_detour :
    Reaches (.inDirectory "db") (fun _ _ => True) .empty (some stocked.1) stocked.2 ∧
      Text.fold "x/../t" ≠ "T" ∧ ((execute (creation "x/../t")).runOn stocked).1.isOk = true ∧
      ∃ heap, stocked.1.heaps.heaps["T"]? = some heap ∧ heap.rows.map Prod.snd = [[.int 7]] ∧
        ¬ Isolated (.inDirectory "db") "T" "db/T.dat" ⟨"t", [.ofType "a" .int]⟩ heap stocked.2
          (following stocked (creation "x/../t")).1 (following stocked (creation "x/../t")).2 ∧
        ∃ opened later emptied,
          (openWith (.inDirectory "db")).runOn (following stocked (creation "x/../t")).2 =
            (.ok opened, later) ∧
          opened.heaps.heaps["T"]? = some emptied ∧ emptied.pages = [] := by
  have reached : Reaches (.inDirectory "db") (fun _ _ => True) .empty (some stocked.1) stocked.2 :=
    reaches_stocked trivial trivial
  obtain ⟨_, listed, before⟩ := held_stocked
  obtain ⟨heap, held, rows⟩ := Option.map_eq_some_iff.mp listed
  have after : (following stocked (creation "x/../t")).2.readFile "db/T.dat" = .ok [] := by
    decide +kernel
  have session : (((openWith (.inDirectory "db")).runOn
      (following stocked (creation "x/../t")).2).1.toOption.bind fun opened =>
        opened.heaps.heaps["T"]?.map fun heap => heap.pages.length) = some 0 := by decide +kernel
  refine ⟨reached, by decide +kernel, by decide +kernel, heap, held, rows, fun isolated => ?_, ?_⟩
  · rw [← isolated.file_eq, after] at before
    cases before
  · generalize (openWith (.inDirectory "db")).runOn (following stocked (creation "x/../t")).2 =
      outcome at session ⊢
    obtain ⟨result, later⟩ := outcome
    cases result with
    | error => cases session
    | ok opened =>
      obtain ⟨emptied, present, none⟩ := Option.map_eq_some_iff.mp session
      exact ⟨opened, later, emptied, rfl, present, List.length_eq_zero_iff.mp none⟩

end Engine

end RowStore
