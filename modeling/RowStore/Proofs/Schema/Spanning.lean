import RowStore.Proofs.Text.Qualified
import RowStore.Schema.Lookup

/-!
Columns of joins. However deep a join is nested, each of its columns ends in its own name behind the name
of its table. A name without dots and a name under one qualifier therefore denote the column that comes
from the table they mean, and none other.
-/

namespace RowStore

open Text (IsPlain sameName endsInName qualify)

/-- A column by the table it comes from and its name there. -/
structure Field where
  table : String
  column : String

namespace Field

/-- A field whose names are free of dots. -/
def Plain (field : Field) : Prop := IsPlain field.table ∧ IsPlain field.column

/-- A field that a qualified name is about. -/
def Named (field : Field) (table column : String) : Prop :=
  sameName field.table table = true ∧ sameName field.column column = true

/-- The names a field has in a join: under the name of its table, and under the names of the joins that
are sides of another one. -/
inductive Spells (field : Field) : String → Prop where
  | single : Spells field (qualify field.table field.column)
  | several (outer : String) : Spells field (qualify outer (qualify field.table field.column))

variable {field : Field} {written outer label name : String}

theorem Spells.qualify (spells : field.Spells written) (outer : String) :
    field.Spells (qualify outer written) := by
  cases spells with
  | single => exact .several outer
  | several inner =>
    rw [Text.qualify_assoc]
    exact .several _

theorem Spells.not_sameName (spells : field.Spells written) (alike : IsPlain name) :
    sameName written name = false := by
  cases spells <;> exact Text.not_sameName_of_isPlain alike

/-- The written name ends in the name of the field. -/
theorem Spells.endsInName_iff (spells : field.Spells written) (plain : field.Plain)
    (alike : IsPlain name) : endsInName written name = true ↔ sameName field.column name = true := by
  cases spells with
  | single => exact Text.endsInName_qualify plain.2 alike
  | several outer =>
    rw [Text.qualify_assoc]
    exact Text.endsInName_qualify plain.2 alike

theorem Spells.named_of_sameName (spells : field.Spells written) (plain : field.Plain)
    (single : IsPlain label) (alike : IsPlain name)
    (same : sameName written (Text.qualify label name) = true) : field.Named label name := by
  cases spells with
  | single => exact (Text.sameName_qualify plain.2 alike).mp same
  | several outer =>
    rw [Text.not_sameName_qualify single plain.2 alike] at same
    cases same

theorem Spells.named_of_endsInName (spells : field.Spells written) (plain : field.Plain)
    (single : IsPlain label) (alike : IsPlain name)
    (ends : endsInName written (Text.qualify label name) = true) : field.Named label name := by
  cases spells with
  | single =>
    rw [Text.not_endsInName_qualify plain.1 plain.2 alike] at ends
    cases ends
  | several outer => exact (Text.endsInName_qualify_qualify plain.1 plain.2 single alike).mp ends

/-- A written name is the qualified name of its field, or ends in it. -/
theorem Spells.found_of_named (spells : field.Spells written) (plain : field.Plain)
    (single : IsPlain label) (alike : IsPlain name) (named : field.Named label name) :
    sameName written (Text.qualify label name) = true ∨
      endsInName written (Text.qualify label name) = true := by
  cases spells with
  | single => exact .inl ((Text.sameName_qualify plain.2 alike).mpr named)
  | several outer =>
    exact .inr ((Text.endsInName_qualify_qualify plain.1 plain.2 single alike).mpr named)

end Field

namespace Schema

variable {schema left right : Schema} {origins others : List Field} {label name : String} {position : Nat}

theorem exists_of_named? (found : schema.named? name = some position) :
    ∃ column, schema.columns[position]? = some column ∧ sameName column.name name = true := by
  obtain ⟨inside, same, _⟩ := List.findIdx?_eq_some_iff_getElem.mp found
  exact ⟨_, List.getElem?_eq_getElem inside, same⟩

theorem named?_eq_none_iff :
    schema.named? name = none ↔ ∀ column ∈ schema.columns, sameName column.name name = false :=
  List.findIdx?_eq_none_iff

theorem mem_endingIn :
    position ∈ schema.endingIn name ↔
      ∃ column, schema.columns[position]? = some column ∧ endsInName column.name name = true := by
  simp only [endingIn, List.mem_map, List.mem_filter, Prod.exists, List.mem_zipIdx_iff_getElem?]
  constructor
  · rintro ⟨column, _, ⟨found, ends⟩, rfl⟩
    exact ⟨column, found, ends⟩
  · rintro ⟨column, found, ends⟩
    exact ⟨column, position, ⟨found, ends⟩, rfl⟩

theorem nodup_endingIn (schema : Schema) (name : String) : (schema.endingIn name).Nodup := by
  have positions : (schema.columns.zipIdx.map (·.2)).Nodup := by
    rw [List.zipIdx_map_snd]
    exact List.nodup_range'
  exact positions.sublist (List.filter_sublist.map _)

/-- A name that no column carries denotes the only column that ends in it. -/
theorem resolve_of_ending (direct : schema.named? name = none)
    (inner : (schema.unqualified? name).bind schema.named? = none)
    (only : ∀ other, other ∈ schema.endingIn name ↔ other = position) :
    schema.resolve name = .ok position := by
  have single : schema.endingIn name = [position] := by
    refine List.perm_singleton.mp ((List.perm_ext_iff_of_nodup (schema.nodup_endingIn name)
      (List.nodup_singleton position)).mpr fun other => ?_)
    rw [only, List.mem_singleton]
  simp only [resolve, direct, inner, single]

theorem resolve_of_no_ending (direct : schema.named? name = none)
    (inner : (schema.unqualified? name).bind schema.named? = none)
    (nowhere : ∀ position, position ∉ schema.endingIn name) :
    schema.resolve name = .error (.unknown name) := by
  simp only [resolve, direct, inner, List.eq_nil_iff_forall_not_mem.mpr nowhere]

theorem resolve_of_endings {other : Nat} (direct : schema.named? name = none)
    (inner : (schema.unqualified? name).bind schema.named? = none)
    (first : position ∈ schema.endingIn name) (second : other ∈ schema.endingIn name)
    (different : position ≠ other) : schema.resolve name = .error (.ambiguous name) := by
  simp only [resolve, direct, inner]
  match ending : schema.endingIn name with
  | [] => simp [ending] at first
  | [single] =>
    rw [ending, List.mem_singleton] at first second
    exact absurd (first.trans second.symm) different
  | _ :: _ :: _ => rfl

/-- The columns of a table as fields. -/
def fields (schema : Schema) : List Field :=
  schema.columns.map fun column => ⟨schema.table, column.name⟩

/-- A schema whose columns come from the given fields, in that order: it is the schema of a table, or that
of a join. -/
inductive Spans (schema : Schema) : List Field → Prop where
  | table : Spans schema schema.fields
  | join (origins : List Field)
      (spelled : List.Forall₂ (fun column field => Field.Spells field column.name) schema.columns origins) :
      Spans schema origins

/-- The columns of a side of a join are written under the name of the side. -/
theorem Spans.qualifiedColumns (spans : schema.Spans origins) :
    List.Forall₂ (fun column field => Field.Spells field column.name)
      (schema.qualifiedColumns schema.table) origins := by
  cases spans with
  | table =>
    rw [Schema.qualifiedColumns, Schema.fields, List.forall₂_map_left_iff, List.forall₂_map_right_iff]
    exact List.forall₂_same.mpr fun column _ => .single
  | join _ spelled =>
    rw [Schema.qualifiedColumns, List.forall₂_map_left_iff]
    exact spelled.imp fun column field spells => spells.qualify schema.table

theorem Spans.merge (first : left.Spans origins) (second : right.Spans others) :
    (Schema.merge left.table left right.table right).Spans (origins ++ others) :=
  .join _ (List.rel_append first.qualifiedColumns second.qualifiedColumns)

theorem Spans.length_eq (spans : schema.Spans origins) : schema.columns.length = origins.length := by
  cases spans with
  | table => exact (List.length_map _).symm
  | join _ spelled => exact spelled.length_eq

theorem getElem?_fields {field : Field} :
    schema.fields[position]? = some field ↔
      ∃ column, schema.columns[position]? = some column ∧ field = ⟨schema.table, column.name⟩ := by
  simp [fields, eq_comm]

/-- Every column of a join comes from a field. -/
theorem exists_spelled (spelled : List.Forall₂ (fun column field => Field.Spells field column.name)
      schema.columns origins) {column : Column} (found : schema.columns[position]? = some column) :
    ∃ field, origins[position]? = some field ∧ field.Spells column.name := by
  obtain ⟨inside, rfl⟩ := List.getElem?_eq_some_iff.mp found
  have there : position < origins.length := spelled.length_eq ▸ inside
  exact ⟨_, List.getElem?_eq_getElem there, spelled.get inside there⟩

/-- Every field of a join is one of its columns. -/
theorem exists_column (spelled : List.Forall₂ (fun column field => Field.Spells field column.name)
      schema.columns origins) {field : Field} (found : origins[position]? = some field) :
    ∃ column, schema.columns[position]? = some column ∧ field.Spells column.name := by
  obtain ⟨inside, rfl⟩ := List.getElem?_eq_some_iff.mp found
  have there : position < schema.columns.length := spelled.length_eq ▸ inside
  exact ⟨_, List.getElem?_eq_getElem there, spelled.get there inside⟩

/-- No column of a join has a name without a dot. -/
theorem named?_join (spelled : List.Forall₂ (fun column field => Field.Spells field column.name)
      schema.columns origins) (alike : IsPlain name) : schema.named? name = none := by
  rw [named?_eq_none_iff]
  intro column member
  obtain ⟨position, found⟩ := List.mem_iff_getElem?.mp member
  obtain ⟨field, _, spells⟩ := exists_spelled spelled found
  exact spells.not_sameName alike

theorem unqualified?_qualify (schema : Schema) (single : IsPlain label) (name : String) :
    schema.unqualified? (qualify label name) =
      if sameName label schema.table then some name else none := by
  rw [unqualified?, Text.splitAtDot_qualify single]

/-- What follows a qualifier is not a column of a join by itself. -/
theorem unqualified?_join (spelled : List.Forall₂ (fun column field => Field.Spells field column.name)
      schema.columns origins) (single : IsPlain label) (alike : IsPlain name) :
    (schema.unqualified? (qualify label name)).bind schema.named? = none := by
  rw [unqualified?_qualify schema single]
  split
  · exact named?_join spelled alike
  · rfl

theorem unqualified?_of_isPlain (schema : Schema) (alike : IsPlain name) :
    (schema.unqualified? name).bind schema.named? = none := by
  rw [unqualified?, Text.splitAtDot_of_isPlain alike]
  rfl

theorem resolve_of_named? (direct : schema.named? name = some position) :
    schema.resolve name = .ok position := by
  rw [resolve, direct]

/-- A column of a table is found by its own name. -/
theorem named?_table (only : ∀ other, (∃ column, schema.columns[other]? = some column ∧
      sameName column.name name = true) ↔ other = position) :
    schema.named? name = some position := by
  cases found : schema.named? name with
  | some other => rw [(only other).mp (exists_of_named? found)]
  | none =>
    obtain ⟨column, present, same⟩ := (only position).mpr rfl
    rw [named?_eq_none_iff.mp found column (List.mem_of_getElem? present)] at same
    cases same

theorem resolve_of_unqualified (direct : schema.named? name = none)
    (inner : (schema.unqualified? name).bind schema.named? = some position) :
    schema.resolve name = .ok position := by
  simp only [resolve, direct, inner]

/-- A table finds none of its columns by a qualified name as it stands. -/
theorem named?_qualify_table (plain : ∀ column ∈ schema.columns, IsPlain column.name)
    (label name : String) : schema.named? (qualify label name) = none := by
  rw [named?_eq_none_iff]
  intro column member
  rw [Text.sameName_comm]
  exact Text.not_sameName_of_isPlain (plain column member)

/-- No column of a table ends in another name. -/
theorem not_mem_endingIn_table (plain : ∀ column ∈ schema.columns, IsPlain column.name)
    (name : String) (position : Nat) : position ∉ schema.endingIn name := by
  intro member
  obtain ⟨column, found, ends⟩ := mem_endingIn.mp member
  rw [Text.not_endsInName_of_isPlain (plain column (List.mem_of_getElem? found))] at ends
  cases ends

theorem isPlain_of_fields (plain : ∀ field ∈ schema.fields, field.Plain) :
    ∀ column ∈ schema.columns, IsPlain column.name :=
  fun _ member => (plain _ (List.mem_map_of_mem member)).2

/-- A qualified name denotes the only column that comes from the table it means and has its name. -/
theorem Spans.resolve_qualify (spans : schema.Spans origins) (plain : ∀ field ∈ origins, field.Plain)
    (single : IsPlain label) (alike : IsPlain name)
    (only : ∀ other, (∃ field, origins[other]? = some field ∧ field.Named label name) ↔
      other = position) : schema.resolve (qualify label name) = .ok position := by
  obtain ⟨field, found, named⟩ := (only position).mpr rfl
  cases spans with
  | table =>
    obtain ⟨column, present, rfl⟩ := getElem?_fields.mp found
    have label_same : sameName label schema.table = true := by
      rw [Text.sameName_comm]
      exact named.1
    refine resolve_of_unqualified (named?_qualify_table (isPlain_of_fields plain) label name) ?_
    rw [unqualified?_qualify schema single, if_pos label_same, Option.bind_some]
    refine named?_table fun other => ⟨?_, ?_⟩
    · rintro ⟨column, present, same⟩
      exact (only other).mp ⟨_, getElem?_fields.mpr ⟨column, present, rfl⟩, named.1, same⟩
    · rintro rfl
      exact ⟨column, present, named.2⟩
  | join _ spelled =>
    cases direct : schema.named? (qualify label name) with
    | some other =>
      obtain ⟨column, present, same⟩ := exists_of_named? direct
      obtain ⟨origin, from_, spells⟩ := exists_spelled spelled present
      have meant := spells.named_of_sameName (plain origin (List.mem_of_getElem? from_)) single alike same
      rw [← (only other).mp ⟨origin, from_, meant⟩]
      exact resolve_of_named? direct
    | none =>
      refine resolve_of_ending direct (unqualified?_join spelled single alike) fun other => ⟨?_, ?_⟩
      · intro member
        obtain ⟨column, present, ends⟩ := mem_endingIn.mp member
        obtain ⟨origin, from_, spells⟩ := exists_spelled spelled present
        have meant := spells.named_of_endsInName (plain origin (List.mem_of_getElem? from_)) single alike
          ends
        exact (only other).mp ⟨origin, from_, meant⟩
      · rintro rfl
        obtain ⟨column, present, spells⟩ := exists_column spelled found
        rcases spells.found_of_named (plain field (List.mem_of_getElem? found)) single alike named with
          same | ends
        · rw [named?_eq_none_iff.mp direct column (List.mem_of_getElem? present)] at same
          cases same
        · exact mem_endingIn.mpr ⟨column, present, ends⟩

/-- A qualified name that is about no field denotes no column. -/
theorem Spans.resolve_qualify_unknown (spans : schema.Spans origins)
    (plain : ∀ field ∈ origins, field.Plain) (single : IsPlain label) (alike : IsPlain name)
    (nowhere : ∀ field ∈ origins, ¬ field.Named label name) :
    schema.resolve (qualify label name) = .error (.unknown (qualify label name)) := by
  cases spans with
  | table =>
    have columns := isPlain_of_fields plain
    refine resolve_of_no_ending (named?_qualify_table columns label name) ?_
      (not_mem_endingIn_table columns _)
    rw [unqualified?_qualify schema single]
    split
    · rename_i same
      rw [Option.bind_some, named?_eq_none_iff]
      intro column member
      rw [Bool.eq_false_iff]
      intro found
      rw [Text.sameName_comm] at same
      exact nowhere _ (List.mem_map_of_mem member) ⟨same, found⟩
    · rfl
  | join _ spelled =>
    have direct : schema.named? (qualify label name) = none := by
      rw [named?_eq_none_iff]
      intro column member
      rw [Bool.eq_false_iff]
      intro same
      obtain ⟨position, present⟩ := List.mem_iff_getElem?.mp member
      obtain ⟨origin, from_, spells⟩ := exists_spelled spelled present
      have among := List.mem_of_getElem? from_
      exact nowhere origin among (spells.named_of_sameName (plain origin among) single alike same)
    refine resolve_of_no_ending direct (unqualified?_join spelled single alike) fun position member => ?_
    obtain ⟨column, present, ends⟩ := mem_endingIn.mp member
    obtain ⟨origin, from_, spells⟩ := exists_spelled spelled present
    have among := List.mem_of_getElem? from_
    exact nowhere origin among (spells.named_of_endsInName (plain origin among) single alike ends)

/-- A join finds the columns of a name without dots by the ends of their names. -/
theorem mem_endingIn_join (spelled : List.Forall₂ (fun column field => Field.Spells field column.name)
      schema.columns origins) (plain : ∀ field ∈ origins, field.Plain) (alike : IsPlain name) :
    position ∈ schema.endingIn name ↔
      ∃ field, origins[position]? = some field ∧ sameName field.column name = true := by
  rw [mem_endingIn]
  constructor
  · rintro ⟨column, present, ends⟩
    obtain ⟨field, found, spells⟩ := exists_spelled spelled present
    exact ⟨field, found, (spells.endsInName_iff (plain field (List.mem_of_getElem? found)) alike).mp ends⟩
  · rintro ⟨field, found, same⟩
    obtain ⟨column, present, spells⟩ := exists_column spelled found
    exact ⟨column, present,
      (spells.endsInName_iff (plain field (List.mem_of_getElem? found)) alike).mpr same⟩

/-- A name without dots denotes the only column of that name. -/
theorem Spans.resolve_plain (spans : schema.Spans origins) (plain : ∀ field ∈ origins, field.Plain)
    (alike : IsPlain name)
    (only : ∀ other, (∃ field, origins[other]? = some field ∧ sameName field.column name = true) ↔
      other = position) : schema.resolve name = .ok position := by
  cases spans with
  | table =>
    refine resolve_of_named? (named?_table fun other => ?_)
    rw [← only other]
    constructor
    · rintro ⟨column, present, same⟩
      exact ⟨_, getElem?_fields.mpr ⟨column, present, rfl⟩, same⟩
    · rintro ⟨field, found, same⟩
      obtain ⟨column, present, rfl⟩ := getElem?_fields.mp found
      exact ⟨column, present, same⟩
  | join _ spelled =>
    refine resolve_of_ending (named?_join spelled alike) (unqualified?_of_isPlain schema alike) ?_
    exact fun other => (mem_endingIn_join spelled plain alike).trans (only other)

/-- A name without dots that no column has denotes none. -/
theorem Spans.resolve_plain_unknown (spans : schema.Spans origins)
    (plain : ∀ field ∈ origins, field.Plain) (alike : IsPlain name)
    (nowhere : ∀ field ∈ origins, sameName field.column name = false) :
    schema.resolve name = .error (.unknown name) := by
  cases spans with
  | table =>
    refine resolve_of_no_ending (named?_eq_none_iff.mpr fun column member => ?_)
      (unqualified?_of_isPlain schema alike) (not_mem_endingIn_table (isPlain_of_fields plain) name)
    exact nowhere _ (List.mem_map_of_mem member)
  | join _ spelled =>
    refine resolve_of_no_ending (named?_join spelled alike) (unqualified?_of_isPlain schema alike) ?_
    intro position member
    obtain ⟨field, found, same⟩ := (mem_endingIn_join spelled plain alike).mp member
    rw [nowhere field (List.mem_of_getElem? found)] at same
    cases same

/-- A name without dots that columns of two tables have is ambiguous. -/
theorem Spans.resolve_plain_ambiguous {other : Nat} {first second : Field} (spans : schema.Spans origins)
    (plain : ∀ field ∈ origins, field.Plain) (alike : IsPlain name)
    (found : origins[position]? = some first) (foundOther : origins[other]? = some second)
    (same : sameName first.column name = true) (sameOther : sameName second.column name = true)
    (different : first.table ≠ second.table) : schema.resolve name = .error (.ambiguous name) := by
  cases spans with
  | table =>
    obtain ⟨_, _, rfl⟩ := getElem?_fields.mp found
    obtain ⟨_, _, rfl⟩ := getElem?_fields.mp foundOther
    exact absurd rfl different
  | join _ spelled =>
    refine resolve_of_endings (named?_join spelled alike) (unqualified?_of_isPlain schema alike)
      ((mem_endingIn_join spelled plain alike).mpr ⟨first, found, same⟩)
      ((mem_endingIn_join spelled plain alike).mpr ⟨second, foundOther, sameOther⟩) ?_
    rintro rfl
    cases found.symm.trans foundOther
    exact different rfl

end Schema

end RowStore
