import RowStore.Proofs.Catalog.Loading
import RowStore.Proofs.Catalog.RoundTrip

/-!
The schemas of a catalog can all be stored: each was checked when it was entered, or at the end of its
block when it was read.
-/

namespace RowStore

namespace Schema

variable {schema : Schema}

theorem pairwise_of_checkColumns {table : String} {seen : List String} {columns : List Column}
    (accepted : checkColumns table seen columns = .ok ()) :
    columns.Pairwise (fun first second => Text.fold first.name ≠ Text.fold second.name) ∧
      ∀ column ∈ columns, Text.fold column.name ∉ seen := by
  induction columns generalizing seen with
  | nil => exact ⟨.nil, by simp⟩
  | cons column rest ih =>
    rw [checkColumns] at accepted
    split at accepted
    · cases accepted
    · split at accepted
      · cases accepted
      · rename_i new
        obtain ⟨apart, unseen⟩ := ih accepted
        refine ⟨List.pairwise_cons.mpr ⟨fun other member same => ?_, apart⟩, fun other member => ?_⟩
        · exact unseen other member (same ▸ List.mem_cons_self)
        · rcases List.mem_cons.mp member with rfl | member
          · simpa using new
          · exact fun before => unseen other member (List.mem_cons_of_mem _ before)

/-- The columns of a schema that can be stored have names of their own. -/
theorem pairwise_of_check (accepted : schema.check = .ok ()) :
    schema.columns.Pairwise fun first second => Text.fold first.name ≠ Text.fold second.name := by
  rw [check] at accepted
  split at accepted
  · cases accepted
  · split at accepted
    · cases accepted
    · exact (pairwise_of_checkColumns accepted).1

end Schema

namespace CatalogText

variable {reading next : Reading} {line : List Char}

/-- A line adds no table but one that is accepted. -/
theorem checked_of_readLine (read : readLine reading line = .ok next)
    (checked : ∀ schema ∈ reading.tables, schema.check = .ok ()) :
    ∀ schema ∈ next.tables, schema.check = .ok () := by
  rw [readLine] at read
  split at read
  · cases read
    exact checked
  · split at read
    · split at read
      · cases read
      · cases read
        exact checked
    · split at read
      · cases read
      · obtain ⟨column, _, done⟩ := Outcome.bind_eq_ok_iff.mp read
        cases done
        exact checked
    · split at read
      · split at read
        · cases read
        · rename_i schema _
          obtain ⟨_, accepted, done⟩ := Outcome.bind_eq_ok_iff.mp read
          cases done
          intro other member
          rcases List.mem_cons.mp member with rfl | member
          · exact Outcome.mapError_eq_ok_iff.mp accepted
          · exact checked other member
      · cases read

theorem checked_of_readLines {lines : List (List Char)} {number : Nat}
    (read : readLines reading number lines = .ok next)
    (checked : ∀ schema ∈ reading.tables, schema.check = .ok ()) :
    ∀ schema ∈ next.tables, schema.check = .ok () := by
  induction lines generalizing reading number with
  | nil =>
    cases read
    exact checked
  | cons line rest ih =>
    obtain ⟨middle, first, later⟩ := Outcome.bind_eq_ok_iff.mp read
    exact ih later (checked_of_readLine (Outcome.mapError_eq_ok_iff.mp first) checked)

/-- The schemas that are read from a text are accepted. -/
theorem checked_of_parse {text : String} {tables : List Schema} (read : parse text = .ok tables) :
    ∀ schema ∈ tables, schema.check = .ok () := by
  obtain ⟨reading, lines, done⟩ := Outcome.bind_eq_ok_iff.mp read
  have checked := checked_of_readLines lines (by simp)
  split at done
  · cases done
  · cases done
    exact fun schema member => checked schema (List.mem_reverse.mp member)

/-- Tables are read back from their text, in order, exactly if all of them can be stored. No name that
`check` accepts is mistaken for a part of the format. -/
theorem parse_render_eq_ok_iff (tables : List Schema) :
    parse (render tables) = .ok tables ↔ ∀ schema ∈ tables, schema.check = .ok () := by
  constructor
  · intro read
    -- what is read was checked line by line, whatever the text
    exact checked_of_parse read
  · intro accepted
    exact parse_render_eq tables accepted

/-- The words of the format are names like any others. -/
example :
    let tables : List Schema :=
      [⟨"END", [⟨"COLUMN", .text, 0⟩, ⟨"TABLE", .int, 4⟩]⟩, ⟨"TABLE", [⟨"é", .boolean, 1⟩]⟩]
    parse (render tables) = .ok tables := by
  decide +kernel

end CatalogText

namespace Catalog

variable {catalog : Catalog} {tables entered : Std.TreeMap String Schema} {schemas : List Schema}
  {disk : Disk}

/-- Tables under their folded names, all of which can be stored. -/
structure Lawful (tables : Std.TreeMap String Schema) : Prop where
  keyed : Keyed tables
  checked : ∀ (key : String) (schema : Schema), tables[key]? = some schema → schema.check = .ok ()

theorem lawful_empty : Lawful {} := by
  refine ⟨keyed_empty, fun key schema found => ?_⟩
  simp at found

theorem Lawful.check_of_mem {schema : Schema} {path : Option String} (lawful : Lawful tables)
    (member : schema ∈ Catalog.schemas ⟨path, tables⟩) : schema.check = .ok () := by
  obtain ⟨key, found⟩ := (mem_schemas _ schema).mp member
  exact lawful.checked key schema found

theorem Lawful.insert {schema : Schema} (lawful : Lawful tables) (accepted : schema.check = .ok ()) :
    Lawful (tables.insert (Text.fold schema.table) schema) := by
  refine ⟨lawful.keyed.insert schema, fun key found present => ?_⟩
  rw [getElem?_insert] at present
  split at present
  · cases present
    exact accepted
  · exact lawful.checked key found present

theorem Lawful.erase (lawful : Lawful tables) (key : String) : Lawful (tables.erase key) := by
  refine ⟨lawful.keyed.erase key, fun other found present => ?_⟩
  rw [Std.TreeMap.getElem?_erase] at present
  split at present
  · cases present
  · exact lawful.checked other found present

theorem Lawful.enter (lawful : Lawful tables) (accepted : ∀ schema ∈ schemas, schema.check = .ok ())
    (done : enter tables schemas = .ok entered) : Lawful entered := by
  induction schemas generalizing tables with
  | nil =>
    cases done
    exact lawful
  | cons schema rest ih =>
    rw [Catalog.enter] at done
    split at done
    · cases done
    · exact ih (lawful.insert (accepted schema List.mem_cons_self))
        (fun other member => accepted other (List.mem_cons_of_mem _ member)) done

theorem checked_of_load {path : String} (loaded : load disk path = .ok schemas) :
    ∀ schema ∈ schemas, schema.check = .ok () := by
  rw [load] at loaded
  split at loaded
  · cases loaded
    simp
  · obtain ⟨bytes, _, read⟩ := Outcome.bind_eq_ok_iff.mp loaded
    split at read
    · exact CatalogText.checked_of_parse read
    · cases read

/-- An opened catalog has its tables under their folded names, and all of them can be stored, whatever its
file holds. -/
theorem lawful_of_openAt {path : Option String} (opened : openAt disk path = .ok catalog) :
    Lawful catalog.tables := by
  cases path with
  | none =>
    cases opened
    exact lawful_empty
  | some file =>
    obtain ⟨schemas, loaded, rest⟩ := Outcome.bind_eq_ok_iff.mp opened
    obtain ⟨tables, done, same⟩ := Outcome.bind_eq_ok_iff.mp rest
    cases same
    exact lawful_empty.enter (checked_of_load loaded) done

end Catalog

end RowStore
