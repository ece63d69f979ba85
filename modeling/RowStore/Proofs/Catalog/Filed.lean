import RowStore.Proofs.Catalog.Loading
import RowStore.Proofs.Catalog.RoundTrip
import RowStore.Proofs.Disk.Bytes
import RowStore.Proofs.Disk.Directory
import RowStore.Proofs.Text.Utf8

/-!
A catalog and the file that holds it. Whatever tables are entered and removed, the file holds those that
are there, and reading it gives the catalog again.
-/

namespace RowStore.Catalog

open Disk (Furnished Holds Leads Spares Tidy place)

variable {disk after : Disk} {directory : String} {catalog : Catalog} {schemas : List Schema}

/-- The path of the catalog file in a data directory. -/
def pathIn (directory : String) : String := Path.join directory "catalog.meta"

theorem locate_pathIn (directory : String) :
    Disk.locate (pathIn directory) = place directory "catalog.meta" :=
  Disk.locate_join directory isFileName_catalogFile

theorem load_eq_nil {path : String} (absent : disk.hasEntry path = false) : load disk path = .ok [] := by
  rw [load, absent]
  rfl

/-- A file that holds the text of schemas is read as these, wherever it stands. -/
theorem load_of_holds {path : String} {number : Nat} (holds : Holds disk path number)
    (accepted : ∀ schema ∈ schemas, schema.check = .ok ())
    (text : (disk.contents number).toBytes = Text.Utf8.encode (CatalogText.render schemas)) :
    load disk path = .ok schemas := by
  rw [load, holds.hasEntry_eq]
  simp only [Disk.readFile, holds.fileAt_eq, text, Text.Utf8.decode?_encode,
    CatalogText.parse_render_eq schemas accepted, Bool.not_true, Bool.false_eq_true, if_false,
    Except.mapError, bind, Except.bind, pure, Except.pure]

/-- The catalog file of a data directory, and the tables that it holds. As long as no table was created
there is none, but one can be written. -/
inductive Filed (directory : String) (disk : Disk) : List Schema → Prop where
  | unwritten (absent : disk.node? (place directory "catalog.meta") = none)
      (writable : ∀ bytes, ((Disk.replaceFile (pathIn directory) bytes).runOn disk).1 = .ok ()) :
      Filed directory disk []
  | written (schemas : List Schema) (number : Nat) (holds : Holds disk (pathIn directory) number)
      (known : number < disk.files.size)
      (beside_usable : Disk.checkPath
        (Path.join (Path.parent (pathIn directory)) Disk.temporaryName) = .ok ())
      (accepted : ∀ schema ∈ schemas, schema.check = .ok ())
      (text : (disk.contents number).toBytes = Text.Utf8.encode (CatalogText.render schemas)) :
      Filed directory disk schemas

namespace Filed

/-- The tables are read as they were written. -/
theorem load_eq (filed : Filed directory disk schemas) :
    load disk (pathIn directory) = .ok schemas := by
  cases filed with
  | unwritten absent writable =>
    rw [← locate_pathIn] at absent
    exact load_eq_nil (Disk.hasEntry_eq_false_of_absent absent)
  | written _ number holds known beside_usable accepted text => exact load_of_holds holds accepted text

/-- The file can be replaced, and everything else stays. -/
theorem exists_replaced (filed : Filed directory disk schemas)
    (takes : ∀ write, disk.refuses write = false) (bytes : List UInt8) :
    ∃ middle, Furnished disk middle ∧ Leads middle (pathIn directory) ∧
      Disk.checkPath (Path.join (Path.parent (pathIn directory)) Disk.temporaryName) = .ok () ∧
      middle.node? (place directory "catalog.meta") ≠ some .directory ∧
      (Disk.replaceFile (pathIn directory) bytes).runOn disk =
        (.ok (), (middle.addFile (place directory "catalog.meta") (.ofBytes bytes)).2) := by
  have done : ((Disk.replaceFile (pathIn directory) bytes).runOn disk).1 = .ok () := by
    cases filed with
    | unwritten absent writable => exact writable bytes
    | written _ number holds known beside_usable accepted text =>
      rw [holds.runOn_replaceFile beside_usable takes bytes]
  have replaces := Disk.replaces (pathIn directory) bytes disk
  generalize (Disk.replaceFile (pathIn directory) bytes).runOn disk = outcome at done replaces ⊢
  obtain ⟨result, after⟩ := outcome
  cases done
  rw [← locate_pathIn]
  cases replaces with
  | replaced middle furnished leads beside_usable no_directory =>
    exact ⟨middle, furnished, leads, beside_usable, no_directory, rfl⟩

/-- Once there are tables, the file holds them on every disk that spares it. -/
theorem spared (filed : Filed directory disk schemas) (listed : schemas ≠ [])
    (spares : ∀ number, disk.node? (place directory "catalog.meta") = some (.file number) →
      Spares (place directory "catalog.meta") number disk after) :
    Filed directory after schemas := by
  cases filed with
  | unwritten => exact absurd rfl listed
  | written _ number holds known beside_usable accepted text =>
    have kept := spares number (locate_pathIn directory ▸ holds.entry)
    refine .written schemas number (holds.spared (locate_pathIn directory ▸ kept)) (kept.known known)
      beside_usable accepted ?_
    rw [kept.contents_eq known, text]

end Filed

/-- What writing the catalog to its file makes of a data directory: the file holds the tables, and no
other file has changed. -/
structure Written (directory : String) (schemas : List Schema) (disk after : Disk) : Prop where
  filed : Filed directory after schemas
  spares : ∀ name number, name ≠ "catalog.meta" → Spares (place directory name) number disk after
  tidy : ∀ named, disk.Tidy directory named →
    after.Tidy directory fun name => name = "catalog.meta" ∨ named name

theorem Filed.written_of_persists (filed : Filed directory disk schemas)
    (takes : ∀ write, disk.refuses write = false) (persists : Persists catalog disk after)
    (path_eq : catalog.path = some (pathIn directory))
    (accepted : ∀ schema ∈ catalog.schemas, schema.check = .ok ()) :
    Written directory catalog.schemas disk after := by
  cases persists with
  | nowhere pathless =>
    rw [path_eq] at pathless
    cases pathless
  | attempted path result _ somewhere ran =>
    cases path_eq.symm.trans somewhere
    obtain ⟨middle, furnished, leads, beside_usable, no_directory, done⟩ :=
      filed.exists_replaced takes catalog.fileBytes
    cases done.symm.trans ran
    have inside := Disk.place_ne_nil directory "catalog.meta"
    have held := locate_pathIn directory ▸
      leads.holds_addFile (locate_pathIn directory ▸ no_directory) (.ofBytes catalog.fileBytes)
    constructor
    case filed =>
      refine .written _ middle.files.size held ?known beside_usable accepted ?text
      case known => simp [Disk.addFile]
      case text => rw [Disk.contents_addFile, if_pos rfl, Contents.toBytes_ofBytes, fileBytes]
    case spares =>
      intro name number other
      exact furnished.spares.trans
        (Disk.spares_addFile inside (fun same => other (Disk.place_inj.mp same)) no_directory _)
    case tidy => exact fun named tidy => (tidy.furnished furnished).addFile _ _

/-- Tables that are entered one after another are found under their folded names. -/
theorem enter_eq_ok (tables : Std.TreeMap String Schema) (schemas : List Schema)
    (distinct : schemas.Pairwise fun first second => Text.fold first.table ≠ Text.fold second.table)
    (free : ∀ schema ∈ schemas, tables[Text.fold schema.table]? = none) :
    ∃ entered, enter tables schemas = .ok entered ∧
      ∀ (key : String) (schema : Schema), entered[key]? = some schema ↔
        tables[key]? = some schema ∨ schema ∈ schemas ∧ key = Text.fold schema.table := by
  induction schemas generalizing tables with
  | nil => exact ⟨tables, rfl, fun key schema => by simp⟩
  | cons first rest ih =>
    obtain ⟨apart, later⟩ := List.pairwise_cons.mp distinct
    have vacant := free first List.mem_cons_self
    have freeLater : ∀ schema ∈ rest,
        (tables.insert (Text.fold first.table) first)[Text.fold schema.table]? = none := by
      intro schema member
      rw [getElem?_insert, if_neg (Ne.symm (apart schema member)),
        free schema (List.mem_cons_of_mem _ member)]
    obtain ⟨entered, done, found⟩ := ih _ later freeLater
    refine ⟨entered, ?_, fun key schema => ?_⟩
    · rw [enter, Std.TreeMap.contains_eq_isSome_getElem?, vacant]
      exact done
    · rw [found, getElem?_insert, List.mem_cons]
      split
      · rename_i same
        subst same
        rw [vacant]
        grind
      · grind

theorem pairwise_schemas (keyed : Keyed catalog.tables) :
    catalog.schemas.Pairwise fun first second => Text.fold first.table ≠ Text.fold second.table := by
  rw [schemas, List.pairwise_map]
  refine List.Pairwise.imp_of_mem (fun {first second} among other apart same => apart ?_)
    catalog.tables.distinct_keys_toList
  have key {entry : String × Schema} (member : entry ∈ catalog.tables.toList) :
      entry.1 = Text.fold entry.2.table :=
    keyed entry.1 entry.2 (Std.TreeMap.mem_toList_iff_getElem?_eq_some.mp member)
  rw [key among, key other, same]
  exact Std.ReflCmp.compare_self

/-- A catalog is opened with the tables whose schemas are read. -/
theorem exists_openAt_of_load {path : String} (loaded : load disk path = .ok catalog.schemas)
    (keyed : Keyed catalog.tables) :
    ∃ opened, openAt disk (some path) = .ok opened ∧ opened.path = some path ∧
      (∀ key : String, opened.tables[key]? = catalog.tables[key]?) ∧
      opened.schemas = catalog.schemas := by
  obtain ⟨entered, done, found⟩ := enter_eq_ok {} catalog.schemas (pairwise_schemas keyed)
    fun schema _ => by simp
  have same : ∀ key : String, entered[key]? = catalog.tables[key]? := by
    intro key
    apply Option.ext
    intro schema
    rw [found]
    constructor
    · rintro (never | ⟨member, rfl⟩)
      · simp at never
      · exact keyed.getElem?_of_mem member
    · intro present
      exact .inr ⟨(mem_schemas catalog schema).mpr ⟨key, present⟩, keyed key schema present⟩
  refine ⟨⟨some path, entered⟩, ?_, rfl, same, ?_⟩
  · rw [openAt, loaded]
    simp only [done, bind, Except.bind, pure, Except.pure]
  · exact congrArg (List.map _) (Std.TreeMap.Equiv.of_forall_constGet?_eq same).toList_eq

/-- A catalog is opened from its file with the tables that it has. -/
theorem Filed.exists_openAt (filed : Filed directory disk catalog.schemas)
    (keyed : Keyed catalog.tables) :
    ∃ opened, openAt disk (some (pathIn directory)) = .ok opened ∧
      opened.path = some (pathIn directory) ∧
      (∀ key : String, opened.tables[key]? = catalog.tables[key]?) ∧
      opened.schemas = catalog.schemas :=
  exists_openAt_of_load filed.load_eq keyed

end RowStore.Catalog
