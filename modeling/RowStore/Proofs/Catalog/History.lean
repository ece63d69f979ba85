import RowStore.Proofs.Catalog.Filed
import RowStore.Proofs.Catalog.Lawful
import RowStore.Proofs.Disk.Making
import RowStore.Proofs.Disk.Touching

/-!
A catalog with a file, over its whole life. Its tables and its file may part when the disk refuses a
write, and the file then stays as it was last written; the next catalog opened has the tables of the file.
-/

namespace RowStore.Catalog

open Disk (Holds Touches Within)

variable {catalog other : Catalog} {disk start after : Disk} {path : String}
  {tables : Std.TreeMap String Schema} {saved : Option (Std.TreeMap String Schema)}

/-- Entering a table does the same to the tables of a catalog wherever its file is. -/
theorem runOn_create_congr (schema : Schema) (same : catalog.tables = other.tables) (disk after : Disk) :
    ((create schema).runOn (catalog, disk)).1 = ((create schema).runOn (other, after)).1 ∧
      ((create schema).runOn (catalog, disk)).2.1.tables =
        ((create schema).runOn (other, after)).2.1.tables := by
  have known : catalog.contains schema.table = other.contains schema.table := by
    rw [contains, contains, same]
  have first := creates schema catalog disk
  have second := creates schema other after
  generalize (create schema).runOn (catalog, disk) = one at first ⊢
  generalize (create schema).runOn (other, after) = two at second ⊢
  obtain ⟨result, next, reached⟩ := one
  obtain ⟨answer, beside, elsewhere⟩ := two
  simp only at first second ⊢
  cases first with
  | invalid fault rejected =>
    cases second with
    | invalid _ again => rw [rejected] at again; cases again; exact ⟨rfl, same⟩
    | known accepted => cases rejected.symm.trans accepted
    | created _ accepted => cases rejected.symm.trans accepted
  | known accepted present =>
    cases second with
    | invalid fault rejected => cases rejected.symm.trans accepted
    | known => exact ⟨rfl, same⟩
    | created _ _ absent => cases present.symm.trans (known.trans absent)
  | created _ accepted absent =>
    cases second with
    | invalid fault rejected => cases rejected.symm.trans accepted
    | known _ present => cases absent.symm.trans (known.trans present)
    | created => exact ⟨rfl, by rw [withTable, withTable, same]⟩

/-- Removing a table does the same to the tables of a catalog wherever its file is. -/
theorem runOn_drop_congr (table : String) (same : catalog.tables = other.tables) (disk after : Disk) :
    ((drop table).runOn (catalog, disk)).1 = ((drop table).runOn (other, after)).1 ∧
      ((drop table).runOn (catalog, disk)).2.1.tables =
        ((drop table).runOn (other, after)).2.1.tables := by
  have found : catalog.get? table = other.get? table := by rw [get?, get?, same]
  have first := drops table catalog disk
  have second := drops table other after
  generalize (drop table).runOn (catalog, disk) = one at first ⊢
  generalize (drop table).runOn (other, after) = two at second ⊢
  obtain ⟨result, next, reached⟩ := one
  obtain ⟨answer, beside, elsewhere⟩ := two
  simp only at first second ⊢
  cases first with
  | missing absent =>
    cases second with
    | missing => exact ⟨rfl, same⟩
    | dropped _ _ present => cases absent.symm.trans (found.trans present)
  | dropped schema _ present =>
    cases second with
    | missing absent => cases present.symm.trans (found.trans absent)
    | dropped _ _ again =>
      cases present.symm.trans (found.trans again)
      exact ⟨rfl, by rw [withoutTable, withoutTable, same]⟩

/-- Whether the disk takes the file of a catalog. -/
def isWritten (catalog : Catalog) (disk : Disk) : Bool :=
  match catalog.path with
  | none => false
  | some path => ((Disk.replaceFile path catalog.fileBytes).runOn disk).1.isOk

theorem isWritten_at (path : String) (tables : Std.TreeMap String Schema) (disk : Disk) :
    isWritten ⟨some path, tables⟩ disk =
      ((Disk.replaceFile path (fileBytes ⟨some path, tables⟩)).runOn disk).1.isOk := rfl

/-- What happens to a catalog with a file: a table is entered or removed, the catalog is opened again, or
its disk takes other writes from now on. -/
inductive Event where
  | create (schema : Schema)
  | drop (table : String)
  | reopen
  | refuse (writes : Nat → Bool)

/-- A catalog and its disk, and the tables as they were when the file was last written. -/
structure History where
  catalog : Catalog
  disk : Disk
  saved : Option (Std.TreeMap String Schema)

namespace History

variable {history next : History}

/-- A catalog at a path, of which nothing was ever written. -/
def begin (path : String) (disk : Disk) : History := ⟨⟨some path, {}⟩, disk, none⟩

/-- A history after a change of the catalog was tried. -/
def change {Answer : Type} (history : History) (step : Step (Catalog × Disk) CatalogError Answer) :
    History :=
  let (result, catalog, disk) := step.runOn (history.catalog, history.disk)
  ⟨catalog, disk,
    if result.isOk && catalog.isWritten history.disk then some catalog.tables else history.saved⟩

/-- The next state of a history. There is none if the catalog cannot be opened. -/
def perform (history : History) : Event → Except CatalogError History
  | .create schema => .ok (history.change (Catalog.create schema))
  | .drop table => .ok (history.change (Catalog.drop table))
  | .reopen => do return { history with catalog := ← openAt history.disk history.catalog.path }
  | .refuse writes => .ok { history with disk := { history.disk with refuses := writes } }

/-- The state of a history after events one after another. -/
def performAll (history : History) (events : List Event) : Except CatalogError History :=
  events.foldlM perform history

theorem change_eq {Answer : Type} {step : Step (Catalog × Disk) CatalogError Answer} {answer : Answer}
    {next : Catalog} (ran : step.runOn (history.catalog, history.disk) = (.ok answer, next, after)) :
    history.change step =
      ⟨next, after, if next.isWritten history.disk then some next.tables else history.saved⟩ := by
  rw [change, ran]
  rfl

/-- A history whose file always tells what was last written, and nothing else. -/
structure Faithful (path : String) (start : Disk) (history : History) : Prop where
  /-- Entering a table answers and does what it would without a file. -/
  created : ∀ (schema : Schema) (disk : Disk),
    ((create schema).runOn (history.catalog, history.disk)).1 =
        ((create schema).runOn (⟨none, history.catalog.tables⟩, disk)).1 ∧
      ((create schema).runOn (history.catalog, history.disk)).2.1.tables =
        ((create schema).runOn (⟨none, history.catalog.tables⟩, disk)).2.1.tables
  /-- Removing a table answers and does what it would without a file. -/
  dropped : ∀ (table : String) (disk : Disk),
    ((drop table).runOn (history.catalog, history.disk)).1 =
        ((drop table).runOn (⟨none, history.catalog.tables⟩, disk)).1 ∧
      ((drop table).runOn (history.catalog, history.disk)).2.1.tables =
        ((drop table).runOn (⟨none, history.catalog.tables⟩, disk)).2.1.tables
  /-- There is no file, or the one that was written last, and no other file is left anywhere. -/
  file : match history.saved with
    | none => history.disk.hasEntry path = false
    | some tables => history.disk.readFile path = .ok (fileBytes ⟨some path, tables⟩)
  elsewhere : Touches {Disk.locate path} start history.disk
  /-- The catalog opens with the tables that were written last. -/
  opens : ∃ opened, openAt history.disk (some path) = .ok opened ∧ opened.path = some path ∧
    (∀ key : String, opened.tables[key]? = (history.saved.getD {})[key]?) ∧
    opened.schemas = schemas ⟨some path, history.saved.getD {}⟩
  /-- Whatever was refused before, the file is written as soon as the disk takes it. -/
  converges : start.IsWritable path → (∀ write, history.disk.refuses write = false) →
    ∀ tables, isWritten ⟨some path, tables⟩ history.disk = true

/-- Before anything was written there is no file. -/
theorem Faithful.hasEntry_eq_false (faithful : Faithful path start history)
    (unsaved : history.saved = none) : history.disk.hasEntry path = false := by
  have file := faithful.file
  rw [unsaved] at file
  exact file

/-- What the file of a catalog holds: nothing, as long as nothing was written, though directories on the
way to it may have been made; and else the tables that were written last. -/
inductive Stored (path : String) (start disk : Disk) :
    Option (Std.TreeMap String Schema) → Prop where
  | unwritten (within : Within start disk) (made : Within disk (start.withParent path)) :
      Stored path start disk none
  | written (tables : Std.TreeMap String Schema) (number : Nat) (lawful : Lawful tables)
      (holds : Holds disk path number) (known : number < disk.files.size)
      (beside_usable : Disk.checkPath (Path.join (Path.parent path) Disk.temporaryName) = .ok ())
      (text : (disk.contents number).toBytes = fileBytes ⟨some path, tables⟩) :
      Stored path start disk (some tables)

namespace Stored

theorem refuse (stored : Stored path start disk saved) (writes : Nat → Bool) :
    Stored path start { disk with refuses := writes } saved := by
  cases stored with
  | unwritten within made => exact .unwritten within made
  | written tables number lawful holds known beside_usable text =>
    exact .written tables number lawful ⟨holds.toLeads.of_kept fun _ found => found, holds.entry⟩ known
      beside_usable text

/-- Putting a file in its place stores its tables; an attempt that fails changes nothing stored. -/
theorem replace {result : Except DiskFault Unit} (stored : Stored path start disk saved)
    (lawful : Lawful tables)
    (ran : (Disk.replaceFile path (fileBytes ⟨some path, tables⟩)).runOn disk = (result, after)) :
    Stored path start after (if result.isOk then some tables else saved) := by
  have replaces := Disk.replaces path (fileBytes ⟨some path, tables⟩) disk
  have failed {fault : DiskFault} (refused : result = .error fault) :
      after.node? = (disk.withParent path).node? := by
    have stopped :
        ((Disk.replaceFile path (fileBytes ⟨some path, tables⟩)).runOn disk).1 = .error fault := by
      rw [ran, refused]
    have left := Disk.node?_of_replaceFile_failed stopped
    rwa [ran] at left
  rw [ran] at replaces
  cases replaces with
  | failed fault after furnished =>
    cases stored with
    | unwritten within made =>
      have same := (failed rfl).trans (Disk.makeParent_congr within made).2
      exact .unwritten (within.trans furnished.within) (Disk.within_of_eq same.symm)
    | written tables number lawful holds known beside_usable text =>
      exact .written tables number lawful (holds.spared furnished.spares)
        (by rw [furnished.files_eq]; exact known) beside_usable
        (by rw [furnished.contents_eq, text])
  | replaced middle furnished leads beside_usable no_directory =>
    have put := Disk.contents_addFile middle (Disk.locate path)
      (.ofBytes (fileBytes ⟨some path, tables⟩)) middle.files.size
    rw [if_pos rfl] at put
    exact .written tables middle.files.size lawful (leads.holds_addFile no_directory _) (by simp)
      beside_usable ((congrArg Contents.toBytes put).trans (Contents.toBytes_ofBytes _))

theorem load_eq (stored : Stored path start disk saved) (vacant : start.IsVacant path) :
    load disk path = .ok (schemas ⟨some path, saved.getD {}⟩) := by
  cases stored with
  | unwritten within made => exact load_eq_nil (made.hasEntry_eq_false vacant)
  | written tables number lawful holds known beside_usable text =>
    exact load_of_holds holds (fun _ member => lawful.check_of_mem member) text

theorem lawful (stored : Stored path start disk saved) : Lawful (saved.getD {}) := by
  cases stored with
  | unwritten => exact lawful_empty
  | written tables number lawful => exact lawful

theorem isWritten (stored : Stored path start disk saved) (writable : start.IsWritable path)
    (takes : ∀ write, disk.refuses write = false) (tables : Std.TreeMap String Schema) :
    Catalog.isWritten ⟨some path, tables⟩ disk = true := by
  have done : ((Disk.replaceFile path (fileBytes ⟨some path, tables⟩)).runOn disk).1 = .ok () := by
    cases stored with
    | unwritten within made => exact writable.runOn_replaceFile within made takes _
    | written _ number lawful holds known beside_usable text =>
      rw [holds.runOn_replaceFile beside_usable takes]
  rw [isWritten_at, done]
  rfl

end Stored

/-- A catalog whose tables can all be written, and a disk on which nothing but its file was touched. -/
structure Sound (path : String) (start : Disk) (history : History) : Prop where
  path_eq : history.catalog.path = some path
  lawful : Lawful history.catalog.tables
  stored : Stored path start history.disk history.saved
  elsewhere : Touches {Disk.locate path} start history.disk

theorem sound_begin (path : String) (start : Disk) : Sound path start (begin path start) := by
  have furnished := Disk.furnished_withParent start path
  exact ⟨rfl, lawful_empty, .unwritten (Within.refl start) furnished.within,
    Touches.refl _ start⟩

namespace Sound

/-- A change that goes on to the file keeps a history sound, whether the disk takes it or not. -/
theorem persisted {next : Catalog} (sound : Sound path start history) (path_eq : next.path = some path)
    (lawful : Lawful next.tables) (persists : Persists next history.disk after) :
    Sound path start
      ⟨next, after, if next.isWritten history.disk then some next.tables else history.saved⟩ := by
  obtain ⟨_, tables⟩ := next
  cases path_eq
  cases persists with
  | nowhere pathless => cases pathless
  | attempted _ result _ somewhere ran =>
    cases somewhere
    have replaces := Disk.replaces path (fileBytes ⟨some path, tables⟩) history.disk
    have stored := sound.stored.replace lawful ran
    rw [ran] at replaces
    rw [isWritten_at, ran]
    exact ⟨rfl, lawful, stored, sound.elsewhere.trans replaces.touches⟩

theorem perform (sound : Sound path start history) (vacant : start.IsVacant path) (event : Event) :
    ∃ next, history.perform event = .ok next ∧ Sound path start next := by
  cases event with
  | create schema =>
    refine ⟨history.change (Catalog.create schema), rfl, ?_⟩
    rw [change]
    have creates := creates schema history.catalog history.disk
    generalize (Catalog.create schema).runOn (history.catalog, history.disk) = outcome at creates ⊢
    obtain ⟨result, next, after⟩ := outcome
    cases creates with
    | invalid => exact sound
    | known => exact sound
    | created _ accepted absent persists =>
      have path_eq : (history.catalog.withTable schema).path = some path := sound.path_eq
      exact sound.persisted path_eq (sound.lawful.insert accepted) persists
  | drop table =>
    refine ⟨history.change (Catalog.drop table), rfl, ?_⟩
    rw [change]
    have drops := drops table history.catalog history.disk
    generalize (Catalog.drop table).runOn (history.catalog, history.disk) = outcome at drops ⊢
    obtain ⟨result, next, after⟩ := outcome
    cases drops with
    | missing => exact sound
    | dropped schema _ present persists =>
      have path_eq : (history.catalog.withoutTable table).path = some path := sound.path_eq
      exact sound.persisted path_eq (sound.lawful.erase _) persists
  | reopen =>
    obtain ⟨opened, done, path_eq, _⟩ :=
      exists_openAt_of_load (sound.stored.load_eq vacant) sound.stored.lawful.keyed
    refine ⟨{ history with catalog := opened }, ?_, path_eq, lawful_of_openAt done, sound.stored,
      sound.elsewhere⟩
    rw [History.perform, sound.path_eq, done]
    rfl
  | refuse writes =>
    exact ⟨_, rfl, sound.path_eq, sound.lawful, sound.stored.refuse writes,
      sound.elsewhere.trans (Disk.touches_refuses _ writes)⟩

theorem performAll (sound : Sound path start history) (vacant : start.IsVacant path)
    (events : List Event) :
    ∃ reached, history.performAll events = .ok reached ∧ Sound path start reached := by
  induction events generalizing history with
  | nil => exact ⟨history, rfl, sound⟩
  | cons event rest ih =>
    obtain ⟨next, first, sound⟩ := sound.perform vacant event
    obtain ⟨reached, later, sound⟩ := ih sound
    refine ⟨reached, ?_, sound⟩
    rw [History.performAll, List.foldlM_cons, first]
    exact later

theorem faithful (sound : Sound path start history) (vacant : start.IsVacant path) :
    Faithful path start history := by
  constructor
  case created => exact fun schema disk => runOn_create_congr schema (by rfl) history.disk disk
  case dropped => exact fun table disk => runOn_drop_congr table (by rfl) history.disk disk
  case file =>
    have stored := sound.stored
    generalize history.saved = saved at stored ⊢
    cases stored with
    | unwritten within made => exact made.hasEntry_eq_false vacant
    | written tables number lawful holds known beside_usable text =>
      simp only [Disk.readFile, holds.fileAt_eq, text, bind, Except.bind, pure, Except.pure]
  case elsewhere => exact sound.elsewhere
  case opens =>
    exact exists_openAt_of_load (sound.stored.load_eq vacant) sound.stored.lawful.keyed
  case converges => exact fun writable takes tables => sound.stored.isWritten writable takes tables

end Sound

/-- A table with one column. -/
def plain : Schema := ⟨"t", [⟨"a", .int, 4⟩]⟩

theorem fileBytes_plain_ne_nil (path : String) :
    fileBytes (withTable ⟨some path, {}⟩ plain) ≠ [] := by
  have text : Text.Utf8.encode (CatalogText.render [plain]) ≠ [] := by decide +kernel
  exact text

/-- A table that the disk refuses leaves the directories on the way to the file. -/
theorem change_refused (path : String) (disk : Disk) (refuses : ∀ write, disk.refuses write = true) :
    ((begin path disk).change (Catalog.create plain)).saved = none ∧
      ((begin path disk).change (Catalog.create plain)).disk.node? = (disk.withParent path).node? := by
  have creates := creates plain ⟨some path, {}⟩ disk
  generalize changed : (Catalog.create plain).runOn (⟨some path, {}⟩, disk) = outcome at creates
  obtain ⟨result, next, after⟩ := outcome
  cases creates with
  | invalid fault rejected => cases rejected
  | known accepted present => cases present
  | created _ accepted absent persists =>
    cases persists with
    | nowhere pathless => cases pathless
    | attempted _ answer _ somewhere ran =>
      cases somewhere
      obtain ⟨fault, refused⟩ :=
        Disk.exists_fault_of_refused refuses (fileBytes_plain_ne_nil path) path
      have made := Disk.node?_of_replaceFile_failed refused
      rw [ran] at refused made
      have unwritten : (withTable ⟨some path, {}⟩ plain).isWritten disk = false := by
        change ((Disk.replaceFile path (withTable ⟨some path, {}⟩ plain).fileBytes).runOn disk).1.isOk =
          false
        rw [ran, refused]
        rfl
      have entered : (Catalog.create plain).runOn ((begin path disk).catalog, (begin path disk).disk) =
          (.ok (), withTable ⟨some path, {}⟩ plain, after) := changed
      rw [change_eq entered, begin, unwritten]
      exact ⟨rfl, made⟩

end History

end RowStore.Catalog
