import RowStore.Catalog.Basic
import RowStore.Proofs.Disk.Replacing

/-!
The catalog: what it finds after a change, and all that entering or removing a table can do to it and
to the disk.
-/

namespace RowStore.Catalog

variable {catalog next : Catalog} {disk after : Disk} {schema : Schema} {table : String}

/-- The catalog with a table entered. -/
def withTable (catalog : Catalog) (schema : Schema) : Catalog :=
  { catalog with tables := catalog.tables.insert (Text.fold schema.table) schema }

/-- The catalog with a table removed. -/
def withoutTable (catalog : Catalog) (table : String) : Catalog :=
  { catalog with tables := catalog.tables.erase (Text.fold table) }

theorem getElem?_insert (tables : Std.TreeMap String Schema) (key other : String)
    (schema : Schema) :
    (tables.insert key schema)[other]? = if other = key then some schema else tables[other]? := by
  rw [Std.TreeMap.getElem?_insert]
  simp only [Std.compare_eq_iff_eq, eq_comm (a := key)]

theorem getElem?_withTable (catalog : Catalog) (schema : Schema) (key : String) :
    (catalog.withTable schema).tables[key]? =
      if key = Text.fold schema.table then some schema else catalog.tables[key]? :=
  getElem?_insert catalog.tables _ key schema

theorem getElem?_withoutTable (catalog : Catalog) (table key : String) :
    (catalog.withoutTable table).tables[key]? =
      if key = Text.fold table then none else catalog.tables[key]? := by
  rw [withoutTable, Std.TreeMap.getElem?_erase]
  simp only [Std.compare_eq_iff_eq, eq_comm (a := Text.fold table)]

theorem contains_eq_isSome (catalog : Catalog) (table : String) :
    catalog.contains table = (catalog.get? table).isSome := by
  rw [contains, get?, Std.TreeMap.contains_eq_isSome_getElem?]

/-- The bytes of the file of a catalog. -/
def fileBytes (catalog : Catalog) : List UInt8 :=
  Text.Utf8.encode (CatalogText.render catalog.schemas)

/-- What writing the catalog to its file does to the disk. -/
inductive Persists (catalog : Catalog) (disk : Disk) : Disk → Prop where
  | nowhere (pathless : catalog.path = none) : Persists catalog disk disk
  | attempted (path : String) (result : Except DiskFault Unit) (after : Disk)
      (somewhere : catalog.path = some path)
      (ran : (Disk.replaceFile path catalog.fileBytes).runOn disk = (result, after)) :
      Persists catalog disk after

theorem runOn_persist (catalog : Catalog) (disk : Disk) :
    ∃ after, persist.runOn (catalog, disk) = (.ok (), catalog, after) ∧
      Persists catalog disk after := by
  rw [persist]
  simp only [Step.runOn_bind, Step.runOn_get]
  cases somewhere : catalog.path with
  | none => exact ⟨disk, rfl, .nowhere somewhere⟩
  | some path =>
    refine ⟨((Disk.replaceFile path catalog.fileBytes).runOn disk).2, rfl, ?_⟩
    cases ran : (Disk.replaceFile path catalog.fileBytes).runOn disk with
    | mk result after => exact .attempted path result after somewhere ran

/-- What entering a new table does. -/
inductive Creates (schema : Schema) (catalog : Catalog) (disk : Disk) :
    Except CatalogError Unit → Catalog → Disk → Prop where
  | invalid (fault : SchemaFault) (rejected : schema.check = .error fault) :
      Creates schema catalog disk (.error (.schema fault)) catalog disk
  | known (accepted : schema.check = .ok ()) (present : catalog.contains schema.table = true) :
      Creates schema catalog disk (.error (.tableExists schema.table)) catalog disk
  | created (after : Disk) (accepted : schema.check = .ok ())
      (absent : catalog.contains schema.table = false)
      (persists : Persists (catalog.withTable schema) disk after) :
      Creates schema catalog disk (.ok ()) (catalog.withTable schema) after

theorem creates (schema : Schema) (catalog : Catalog) (disk : Disk) :
    Creates schema catalog disk ((create schema).runOn (catalog, disk)).1
      ((create schema).runOn (catalog, disk)).2.1 ((create schema).runOn (catalog, disk)).2.2 := by
  rw [create]
  simp only [Step.runOn_bind, Step.runOn_ofExcept, Step.runOn_get]
  cases accepted : schema.check with
  | error fault => exact .invalid fault accepted
  | ok _ =>
    simp only [Except.mapError]
    cases present : catalog.contains schema.table with
    | true => exact .known accepted present
    | false =>
      simp only [Bool.false_eq_true, if_false, Step.runOn_bind, Step.runOn_set]
      obtain ⟨after, ran, persists⟩ := runOn_persist (catalog.withTable schema) disk
      rw [withTable] at ran
      rw [ran]
      exact .created after accepted present persists

/-- What removing a table does. -/
inductive Drops (table : String) (catalog : Catalog) (disk : Disk) :
    Except CatalogError Schema → Catalog → Disk → Prop where
  | missing (absent : catalog.get? table = none) :
      Drops table catalog disk (.error (.tableMissing table)) catalog disk
  | dropped (schema : Schema) (after : Disk) (present : catalog.get? table = some schema)
      (persists : Persists (catalog.withoutTable table) disk after) :
      Drops table catalog disk (.ok schema) (catalog.withoutTable table) after

theorem drops (table : String) (catalog : Catalog) (disk : Disk) :
    Drops table catalog disk ((drop table).runOn (catalog, disk)).1
      ((drop table).runOn (catalog, disk)).2.1 ((drop table).runOn (catalog, disk)).2.2 := by
  rw [drop]
  simp only [Step.runOn_bind, Step.runOn_get]
  cases present : catalog.get? table with
  | none => exact .missing present
  | some schema =>
    simp only [Step.runOn_bind, Step.runOn_set, Step.runOn_pure]
    obtain ⟨after, ran, persists⟩ := runOn_persist (catalog.withoutTable table) disk
    rw [withoutTable] at ran
    rw [ran]
    exact .dropped schema after present persists

end RowStore.Catalog
