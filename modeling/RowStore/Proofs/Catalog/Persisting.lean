import RowStore.Proofs.Catalog.Filed
import RowStore.Proofs.Catalog.Lawful
import RowStore.Proofs.Disk.Touching

/-!
Tables that the file of a catalog lists. A table stays listed as long as the file is not touched, and when
a catalog that has the table is written to it, whether the disk takes that or not.
-/

namespace RowStore.Catalog

open Disk (Touches)

variable {catalog : Catalog} {disk after : Disk} {path : Option String} {key : String} {schema : Schema}
  {places : Set Location}

/-- A disk from which a catalog is opened that has a table under a folded name. -/
def Lists (path : Option String) (key : String) (schema : Schema) (disk : Disk) : Prop :=
  ∃ catalog, openAt disk path = .ok catalog ∧ catalog.tables[key]? = some schema

/-- The file of a catalog that is not touched is read as before. -/
theorem load_of_touches {file : String} {schemas : List Schema} (intact : disk.Intact)
    (touches : Touches places disk after) (elsewhere : Disk.locate file ∉ places)
    (loaded : load disk file = .ok schemas) (listed : schemas ≠ []) : load after file = .ok schemas := by
  cases present : disk.hasEntry file with
  | false =>
    rw [load_eq_nil present] at loaded
    cases loaded
    exact absurd rfl listed
  | true =>
    rw [load, present] at loaded
    obtain ⟨bytes, read, parsed⟩ := Outcome.bind_eq_ok_iff.mp loaded
    obtain ⟨number, found, same⟩ := Outcome.bind_eq_ok_iff.mp (Outcome.mapError_eq_ok_iff.mp read)
    have kept := touches.fileAt_eq elsewhere found
    have entry := Disk.node?_of_fileAt found
    have contents := touches.contents_eq _ _ elsewhere entry (intact _ _ entry)
    have still : after.hasEntry file = true := by
      obtain ⟨_, reached, _⟩ := Outcome.bind_eq_ok_iff.mp kept
      obtain ⟨⟨location, node⟩, led, _⟩ := Outcome.bind_eq_ok_iff.mp reached
      exact (Disk.hasEntry_iff after file).mpr ⟨location, node, led⟩
    rw [load, still]
    refine Outcome.bind_eq_ok_iff.mpr ⟨bytes, Outcome.mapError_eq_ok_iff.mpr ?_, parsed⟩
    exact Outcome.bind_eq_ok_iff.mpr ⟨number, kept, by rw [contents]; exact same⟩

namespace Lists

theorem touches (lists : Lists path key schema disk) (intact : disk.Intact)
    (touches : Touches places disk after)
    (elsewhere : ∀ file, path = some file → Disk.locate file ∉ places) :
    Lists path key schema after := by
  obtain ⟨catalog, opened, known⟩ := lists
  cases path with
  | none => exact ⟨catalog, opened, known⟩
  | some file =>
    obtain ⟨schemas, loaded, rest⟩ := Outcome.bind_eq_ok_iff.mp opened
    obtain ⟨tables, done, same⟩ := Outcome.bind_eq_ok_iff.mp rest
    cases same
    have listed : schemas ≠ [] := by
      rintro rfl
      cases done
      simp at known
    have kept := load_of_touches intact touches (elsewhere file rfl) loaded listed
    exact ⟨⟨some file, tables⟩, Outcome.bind_eq_ok_iff.mpr ⟨schemas, kept, rest⟩, known⟩

end Lists

/-- A table of the catalog that is written is listed, if it was before. -/
theorem Persists.lists (persists : Persists catalog disk after) (intact : disk.Intact)
    (lawful : Lawful catalog.tables) (known : catalog.tables[key]? = some schema)
    (lists : Lists catalog.path key schema disk) : Lists catalog.path key schema after := by
  cases persists with
  | nowhere => exact lists
  | attempted file result _ somewhere ran =>
    have replaces := Disk.replaces file catalog.fileBytes disk
    rw [ran] at replaces
    cases replaces with
    | failed fault after furnished =>
      have touches : Touches ∅ disk after := furnished.touches
      exact lists.touches intact touches fun _ _ => Set.notMem_empty _
    | replaced middle furnished leads beside_usable no_directory =>
      have put := Disk.contents_addFile middle (Disk.locate file) (.ofBytes catalog.fileBytes)
        middle.files.size
      rw [if_pos rfl] at put
      have loaded := load_of_holds (leads.holds_addFile no_directory _)
        (fun schema member => lawful.check_of_mem member)
        ((congrArg Contents.toBytes put).trans (Contents.toBytes_ofBytes _))
      obtain ⟨opened, done, _, tables, _⟩ := exists_openAt_of_load loaded lawful.keyed
      rw [somewhere]
      exact ⟨opened, done, (tables key).trans known⟩

end RowStore.Catalog
