import RowStore.Proofs.Schema.Spanning

/-!
Names that two columns answer to alike. A name that is not a column's own is looked up among the ends of
all names, and reported if it is the end of two. A column's own name is looked up from left to right,
so that of two columns of one name the first is taken.
-/

namespace RowStore.Schema

open Text (sameName endsInName)

variable {schema left right : Schema} {name inner : String} {position other : Nat}
  {answer : Except LookupError Nat}

/-- The column at a position has a name. -/
def HasName (schema : Schema) (name : String) (position : Nat) : Prop :=
  ∃ column, schema.columns[position]? = some column ∧ sameName column.name name = true

/-- The column at a position has a name that ends in a dot and a name. -/
def Ends (schema : Schema) (name : String) (position : Nat) : Prop :=
  ∃ column, schema.columns[position]? = some column ∧ endsInName column.name name = true

/-- No column has the name, as it stands. -/
def Unnamed (schema : Schema) (name : String) : Prop := ∀ position, ¬ schema.HasName name position

/-- No column has the name that stands behind the schema's own name. -/
def Foreign (schema : Schema) (name : String) : Prop :=
  ∀ inner, schema.unqualified? name = some inner → schema.Unnamed inner

/-- What a lookup answers, by the first way in which the name is found. -/
inductive Answers (schema : Schema) (name : String) : Except LookupError Nat → Prop where
  | named (position : Nat) (has : schema.HasName name position) : Answers schema name (.ok position)
  | own (position : Nat) (inner : String) (unnamed : schema.Unnamed name)
      (split : schema.unqualified? name = some inner) (has : schema.HasName inner position) :
      Answers schema name (.ok position)
  | ending (position : Nat) (unnamed : schema.Unnamed name) (foreign : schema.Foreign name)
      (only : ∀ other, schema.Ends name other ↔ other = position) : Answers schema name (.ok position)
  | unknown (unnamed : schema.Unnamed name) (foreign : schema.Foreign name)
      (nowhere : ∀ position, ¬ schema.Ends name position) : Answers schema name (.error (.unknown name))
  | ambiguous (first second : Nat) (unnamed : schema.Unnamed name) (foreign : schema.Foreign name)
      (different : first ≠ second) (ends : schema.Ends name first) (alike : schema.Ends name second) :
      Answers schema name (.error (.ambiguous name))

theorem hasName_of_named? (found : schema.named? name = some position) : schema.HasName name position :=
  exists_of_named? found

theorem unnamed_of_named? (absent : schema.named? name = none) : schema.Unnamed name := by
  rintro position ⟨column, found, same⟩
  rw [named?_eq_none_iff.mp absent column (List.mem_of_getElem? found)] at same
  cases same

theorem answers (schema : Schema) (name : String) : schema.Answers name (schema.resolve name) := by
  cases direct : schema.named? name with
  | some position =>
    simp only [resolve, direct]
    exact .named position (hasName_of_named? direct)
  | none =>
    have unnamed := unnamed_of_named? direct
    cases behind : (schema.unqualified? name).bind schema.named? with
    | some position =>
      simp only [resolve, direct, behind]
      obtain ⟨inner, split, found⟩ := Option.bind_eq_some_iff.mp behind
      exact .own position inner unnamed split (hasName_of_named? found)
    | none =>
      have foreign : schema.Foreign name := fun inner split =>
        unnamed_of_named? (Option.bind_eq_none_iff.mp behind inner split)
      simp only [resolve, direct, behind]
      have ends (position : Nat) : schema.Ends name position ↔ position ∈ schema.endingIn name :=
        mem_endingIn.symm
      have distinct := schema.nodup_endingIn name
      rcases found : schema.endingIn name with _ | ⟨first, _ | ⟨second, rest⟩⟩
      · exact .unknown unnamed foreign fun position ending => by simp [ends, found] at ending
      · exact .ending first unnamed foreign fun other => by simp [ends, found]
      · rw [found, List.nodup_cons] at distinct
        refine .ambiguous first second unnamed foreign ?_ ?_ ?_
        · rintro rfl
          exact distinct.1 List.mem_cons_self
        · simp [ends, found]
        · simp [ends, found]

/-- Two columns of one name are denoted alike: by that name, by that name behind the schema's own, or by
the end of both their names. The first way in which the name is found counts. -/
inductive EquallyDenoted (schema : Schema) (name : String) (first second : Nat) : Prop where
  | named (has : schema.HasName name first) (alike : schema.HasName name second)
  | own (inner : String) (unnamed : schema.Unnamed name) (split : schema.unqualified? name = some inner)
      (has : schema.HasName inner first) (alike : schema.HasName inner second)
  | ending (unnamed : schema.Unnamed name) (foreign : schema.Foreign name)
      (ends : schema.Ends name first) (alike : schema.Ends name second)

/-- A name that is never bound to one of several columns: where it denotes a column no other one has the
name of that column, and where it denotes two alike the lookup says so. -/
structure BoundOnce (schema : Schema) (name : String) : Prop where
  unique : ∀ position column, schema.resolve name = .ok position →
    schema.columns[position]? = some column → ∀ other, schema.HasName column.name other → other = position
  reported : ∀ first second, first ≠ second → schema.EquallyDenoted name first second →
    schema.resolve name = .error (.ambiguous name)

/-- A name that two columns have, as it stands or behind the schema's own name. -/
def Tied (schema : Schema) (name : String) : Prop :=
  ∃ first second, first ≠ second ∧
    (schema.HasName name first ∧ schema.HasName name second ∨
      schema.Unnamed name ∧ ∃ inner, schema.unqualified? name = some inner ∧
        schema.HasName inner first ∧ schema.HasName inner second)

theorem HasName.congr {alike : String} (has : schema.HasName name position)
    (same : Text.fold name = Text.fold alike) : schema.HasName alike position := by
  obtain ⟨column, found, named⟩ := has
  refine ⟨column, found, ?_⟩
  rw [Text.sameName_iff] at named ⊢
  exact named.trans same

/-- Another column of the same name is found under every name that the column is found under. -/
theorem HasName.of_column {column : Column} (has : schema.HasName name position)
    (found : schema.columns[position]? = some column) (alike : schema.HasName column.name other) :
    schema.HasName name other := by
  obtain ⟨_, again, named⟩ := has
  cases found.symm.trans again
  exact alike.congr ((Text.sameName_iff _ _).mp named)

theorem Ends.of_column {column : Column} (ends : schema.Ends name position)
    (found : schema.columns[position]? = some column) (alike : schema.HasName column.name other) :
    schema.Ends name other := by
  obtain ⟨_, again, named⟩ := ends
  cases found.symm.trans again
  obtain ⟨twin, present, same⟩ := alike
  refine ⟨twin, present, ?_⟩
  rw [Text.endsInName_iff] at named ⊢
  rwa [(Text.sameName_iff _ _).mp same]

/-- A tie is settled in favour of the first column. -/
theorem Tied.exists_position (tied : schema.Tied name) : ∃ position, schema.resolve name = .ok position := by
  obtain ⟨first, _, _, tied⟩ := tied
  have answers := schema.answers name
  generalize schema.resolve name = answer at answers ⊢
  have named : ¬ schema.Unnamed name ∨ ∃ inner, schema.unqualified? name = some inner ∧
      ¬ schema.Unnamed inner := by
    rcases tied with ⟨has, _⟩ | ⟨_, inner, split, has, _⟩
    · exact .inl fun unnamed => unnamed first has
    · exact .inr ⟨inner, split, fun unnamed => unnamed first has⟩
  cases answers with
  | named position => exact ⟨position, rfl⟩
  | own position => exact ⟨position, rfl⟩
  | ending position => exact ⟨position, rfl⟩
  | unknown unnamed foreign =>
    rcases named with named | ⟨inner, split, named⟩
    · exact absurd unnamed named
    · exact absurd (foreign inner split) named
  | ambiguous first second unnamed foreign =>
    rcases named with named | ⟨inner, split, named⟩
    · exact absurd unnamed named
    · exact absurd (foreign inner split) named

theorem Tied.exists_equallyDenoted (tied : schema.Tied name) :
    ∃ first second, first ≠ second ∧ schema.EquallyDenoted name first second := by
  obtain ⟨first, second, different, ⟨has, alike⟩ | ⟨unnamed, inner, split, has, alike⟩⟩ := tied
  · exact ⟨first, second, different, .named has alike⟩
  · exact ⟨first, second, different, .own inner unnamed split has alike⟩

/-- Two columns whose names end in a name that is nobody's own are reported. -/
theorem resolve_of_ends {first second : Nat} (unnamed : schema.Unnamed name)
    (foreign : schema.Foreign name) (different : first ≠ second) (ends : schema.Ends name first)
    (alike : schema.Ends name second) : schema.resolve name = .error (.ambiguous name) := by
  have answers := schema.answers name
  generalize schema.resolve name = answer at answers ⊢
  cases answers with
  | named position has => exact absurd has (unnamed position)
  | own position inner _ split has => exact absurd has (foreign inner split position)
  | ending position _ _ only =>
    exact absurd (((only first).mp ends).trans ((only second).mp alike).symm) different
  | unknown _ _ nowhere => exact absurd ends (nowhere first)
  | ambiguous => rfl

/-- A name is bound to one of several columns exactly if it is the whole name of two of them, as it stands
or behind the schema's own name. -/
theorem boundOnce_iff_not_tied : schema.BoundOnce name ↔ ¬ schema.Tied name := by
  constructor
  · intro bound tied
    obtain ⟨first, second, different, equally⟩ := tied.exists_equallyDenoted
    obtain ⟨position, found⟩ := tied.exists_position
    cases found.symm.trans (bound.reported first second different equally)
  · intro free
    refine ⟨fun position column resolved found other alike => ?unique,
      fun first second different equally => ?reported⟩
    case unique =>
      have answers := schema.answers name
      rw [resolved] at answers
      by_contra different
      cases answers with
      | named _ has => exact free ⟨other, position, different, .inl ⟨has.of_column found alike, has⟩⟩
      | own _ inner unnamed split has =>
        exact free ⟨other, position, different,
          .inr ⟨unnamed, inner, split, has.of_column found alike, has⟩⟩
      | ending _ unnamed foreign only =>
        exact different ((only other).mp (((only position).mpr rfl).of_column found alike))
    case reported =>
      cases equally with
      | named has alike => exact absurd ⟨first, second, different, .inl ⟨has, alike⟩⟩ free
      | own inner unnamed split has alike =>
        exact absurd ⟨first, second, different, .inr ⟨unnamed, inner, split, has, alike⟩⟩ free
      | ending unnamed foreign ends alike => exact resolve_of_ends unnamed foreign different ends alike

/-- Columns with names of their own. -/
def Distinct (schema : Schema) : Prop :=
  schema.columns.Pairwise fun first second => Text.fold first.name ≠ Text.fold second.name

/-- Where columns have names of their own, a name is that of one column at most. -/
theorem Distinct.unique (distinct : schema.Distinct) (has : schema.HasName name position)
    (alike : schema.HasName name other) : position = other := by
  obtain ⟨column, found, named⟩ := has
  obtain ⟨twin, present, same⟩ := alike
  rw [Text.sameName_iff] at named same
  obtain ⟨inside, rfl⟩ := List.getElem?_eq_some_iff.mp found
  obtain ⟨within, rfl⟩ := List.getElem?_eq_some_iff.mp present
  have apart := List.pairwise_iff_getElem.mp distinct
  rcases Nat.lt_trichotomy position other with before | equal | behind
  · exact absurd (named.trans same.symm) (apart position other inside within before)
  · exact equal
  · exact absurd (same.trans named.symm) (apart other position within inside behind)

/-- Every name is bound to no more than one column exactly if no two columns have the same name. -/
theorem forall_boundOnce_iff_distinct : (∀ name, schema.BoundOnce name) ↔ schema.Distinct := by
  simp only [boundOnce_iff_not_tied]
  constructor
  · intro free
    refine List.pairwise_iff_getElem.mpr fun first second inside within before same => ?_
    refine free schema.columns[first].name ⟨first, second, Nat.ne_of_lt before, .inl ⟨?_, ?_⟩⟩
    · exact ⟨_, List.getElem?_eq_getElem inside, (Text.sameName_iff _ _).mpr rfl⟩
    · exact ⟨_, List.getElem?_eq_getElem within, (Text.sameName_iff _ _).mpr same.symm⟩
  · rintro distinct name ⟨first, second, different, ⟨has, alike⟩ | ⟨_, inner, _, has, alike⟩⟩
    · exact different (distinct.unique has alike)
    · exact different (distinct.unique has alike)

theorem distinct_congr {twin : Schema} (same : twin.columns = schema.columns) :
    twin.Distinct ↔ schema.Distinct := by
  rw [Distinct, Distinct, same]

/-- No column of one side of a join has, under the name of its side, the name of one of the other. -/
def Apart (left right : Schema) : Prop :=
  ∀ column ∈ left.columns, ∀ other ∈ right.columns,
    Text.fold (Text.qualify left.table column.name) ≠ Text.fold (Text.qualify right.table other.name)

/-- The columns of a join have names of their own exactly if those of both sides have, and the sides do
not share one. -/
theorem distinct_merge_iff :
    (merge left.table left right.table right).Distinct ↔
      left.Distinct ∧ right.Distinct ∧ left.Apart right := by
  simp only [Distinct, merge, qualifiedColumns, List.pairwise_append, List.pairwise_map,
    List.forall_mem_map, Apart, ne_eq, Text.fold_qualify_inj]

end RowStore.Schema
