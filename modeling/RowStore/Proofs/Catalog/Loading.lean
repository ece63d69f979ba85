import RowStore.Proofs.Catalog.Change
import RowStore.Proofs.Heap.Restoring

/-!
The catalog as it is loaded: every schema stands under its folded name, and a catalog with tables comes
from a file that is read as one.
-/

namespace RowStore.Catalog

variable {catalog : Catalog} {disk : Disk} {tables entered : Std.TreeMap String Schema}
  {schemas : List Schema}

/-- Tables that stand under their folded names. -/
def Keyed (tables : Std.TreeMap String Schema) : Prop :=
  ∀ (key : String) (schema : Schema), tables[key]? = some schema → key = Text.fold schema.table

theorem keyed_empty : Keyed {} := by
  intro key schema found
  simp at found

theorem Keyed.insert (keyed : Keyed tables) (schema : Schema) :
    Keyed (tables.insert (Text.fold schema.table) schema) := by
  intro key found present
  rw [getElem?_insert] at present
  split at present
  · cases present
    assumption
  · exact keyed key found present

theorem Keyed.erase (keyed : Keyed tables) (key : String) : Keyed (tables.erase key) := by
  intro other found present
  rw [Std.TreeMap.getElem?_erase] at present
  split at present
  · cases present
  · exact keyed other found present

theorem Keyed.enter (keyed : Keyed tables) (done : enter tables schemas = .ok entered) :
    Keyed entered := by
  induction schemas generalizing tables with
  | nil =>
    cases done
    exact keyed
  | cons schema rest ih =>
    rw [Catalog.enter] at done
    split at done
    · cases done
    · exact ih (keyed.insert schema) done

theorem mem_schemas (catalog : Catalog) (schema : Schema) :
    schema ∈ catalog.schemas ↔ ∃ key : String, catalog.tables[key]? = some schema := by
  simp only [schemas, List.mem_map, Prod.exists, exists_eq_right,
    Std.TreeMap.mem_toList_iff_getElem?_eq_some]

/-- The schema of a name that stands in a catalog is found under that name. -/
theorem Keyed.getElem?_of_mem {schema : Schema} (keyed : Keyed catalog.tables)
    (member : schema ∈ catalog.schemas) :
    catalog.tables[Text.fold schema.table]? = some schema := by
  obtain ⟨key, found⟩ := (mem_schemas catalog schema).mp member
  rw [← keyed key schema found, found]

/-- Schemas are loaded from a file that is read as a catalog. -/
theorem hasCatalog_of_load {path : String} (loaded : load disk path = .ok schemas) :
    schemas = [] ∨ disk.HasCatalog (Disk.locate path) := by
  rw [load] at loaded
  cases present : disk.hasEntry path with
  | false =>
    simp only [present, Bool.not_false, if_true, pure, Except.pure, Except.ok.injEq] at loaded
    exact .inl loaded.symm
  | true =>
    simp only [present, Bool.not_true, Bool.false_eq_true, if_false, Disk.readFile] at loaded
    cases found : disk.fileAt path with
    | error fault => simp [found, Except.mapError, bind, Except.bind] at loaded
    | ok number =>
      simp only [found, Except.mapError, bind, Except.bind, pure, Except.pure] at loaded
      cases read : Text.Utf8.decode? (disk.contents number).toBytes with
      | none => simp [read, throw, throwThe, MonadExceptOf.throw] at loaded
      | some text =>
        simp only [read] at loaded
        exact .inr ⟨number, text, schemas, Disk.node?_of_fileAt found, read, loaded⟩

/-- What an opened catalog is. -/
theorem openAt_eq_ok {path : Option String} (opened : openAt disk path = .ok catalog) :
    catalog.path = path ∧ Keyed catalog.tables ∧
      (catalog.schemas = [] ∨ ∃ file, path = some file ∧ disk.HasCatalog (Disk.locate file)) := by
  cases path with
  | none =>
    cases opened
    exact ⟨rfl, keyed_empty, .inl rfl⟩
  | some file =>
    rw [openAt.eq_def] at opened
    cases loaded : load disk file with
    | error error => simp [loaded, bind, Except.bind] at opened
    | ok schemas =>
      cases done : enter {} schemas with
      | error error => simp [loaded, done, bind, Except.bind] at opened
      | ok tables =>
        simp only [loaded, done, bind, Except.bind, pure, Except.pure, Except.ok.injEq] at opened
        subst opened
        refine ⟨rfl, keyed_empty.enter done, ?_⟩
        rcases hasCatalog_of_load loaded with rfl | hasCatalog
        · cases done
          exact .inl rfl
        · exact .inr ⟨file, rfl, hasCatalog⟩

end RowStore.Catalog
