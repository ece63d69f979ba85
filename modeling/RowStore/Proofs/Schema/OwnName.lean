import RowStore.Proofs.Schema.Ambiguity

/-!
Names behind the schema's own name. Such a name is looked up among the whole names of the columns, once as
it stands and once without the schema's name, and only then among the ends of their names. It therefore
denotes the column that the bare name denotes if that is the column's whole name, but not always if it is
only the end of it.
-/

namespace RowStore.Schema

open Text (IsPlain qualify)

variable {schema : Schema} {name : String} {position other : Nat}

theorem unqualified?_own (single : IsPlain schema.table) (name : String) :
    schema.unqualified? (qualify schema.table name) = some name := by
  rw [unqualified?_qualify schema single, if_pos ((Text.sameName_iff _ _).mpr rfl)]

theorem HasName.ends {outer : String} (has : schema.HasName (qualify outer name) position) :
    schema.Ends name position := by
  obtain ⟨column, found, same⟩ := has
  rw [Text.sameName_iff, Text.fold_qualify] at same
  exact ⟨column, found, (Text.endsInName_iff _ _).mpr ⟨_, same⟩⟩

theorem Ends.ends {outer : String} (ends : schema.Ends (qualify outer name) position) :
    schema.Ends name position := by
  obtain ⟨column, found, same⟩ := ends
  obtain ⟨before, same⟩ := (Text.endsInName_iff _ _).mp same
  rw [Text.fold_qualify, Text.qualify_assoc] at same
  exact ⟨column, found, (Text.endsInName_iff _ _).mpr ⟨_, same⟩⟩

/-- A column whose whole name has no dot does not end in any name. -/
theorem HasName.not_ends {written : String} (has : schema.HasName name position) (plain : IsPlain name) :
    ¬ schema.Ends written position := by
  rintro ⟨column, found, ends⟩
  obtain ⟨_, again, same⟩ := has
  cases found.symm.trans again
  rw [Text.not_endsInName_of_isPlain (plain.of_fold ((Text.sameName_iff _ _).mp same))] at ends
  cases ends

/-- A name without dots denotes the first column that has it, or else the only one that ends in it. -/
theorem named_or_ending_of_resolve (plain : IsPlain name) (found : schema.resolve name = .ok position) :
    schema.named? name = some position ∨
      schema.named? name = none ∧ ∀ other, schema.Ends name other ↔ other = position := by
  cases direct : schema.named? name with
  | some other => exact .inl (congrArg some (Except.ok.inj ((resolve_of_named? direct).symm.trans found)))
  | none =>
    have answers := schema.answers name
    rw [found] at answers
    cases answers with
    | named _ has => exact absurd has (unnamed_of_named? direct position)
    | own _ inner _ split has =>
      have nobody := Option.bind_eq_none_iff.mp (unqualified?_of_isPlain schema plain) inner split
      exact absurd has (unnamed_of_named? nobody position)
    | ending _ _ _ only => exact .inr ⟨rfl, only⟩

/-- The column at a position is denoted by a name behind the schema's own as it is by the name itself: it
has the name for its own and no column has the longer one, or the longer one is its name or the end of
it. -/
def Owns (schema : Schema) (name : String) (position : Nat) : Prop :=
  schema.HasName name position ∧ schema.Unnamed (qualify schema.table name) ∨
    schema.HasName (qualify schema.table name) position ∨ schema.Ends (qualify schema.table name) position

/-- What a name behind the schema's own denotes, where the name itself denotes a column. If it is another
column, then that has the longer name for its own. -/
structure OwnLookup (schema : Schema) (name : String) (position : Nat) : Prop where
  same_iff : schema.resolve (qualify schema.table name) = .ok position ↔ schema.Owns name position
  otherwise : ¬ schema.Owns name position →
    schema.resolve (qualify schema.table name) = .error (.unknown (qualify schema.table name)) ∨
      ∃ other, schema.resolve (qualify schema.table name) = .ok other ∧
        schema.HasName name position ∧ schema.HasName (qualify schema.table name) other

theorem OwnLookup.of_owns (found : schema.resolve (qualify schema.table name) = .ok position)
    (owns : schema.Owns name position) : schema.OwnLookup name position :=
  ⟨iff_of_true found owns, fun apart => absurd owns apart⟩

theorem OwnLookup.of_not_owns (apart : ¬ schema.Owns name position)
    (differs : schema.resolve (qualify schema.table name) ≠ .ok position)
    (answer : schema.resolve (qualify schema.table name) = .error (.unknown (qualify schema.table name)) ∨
      ∃ other, schema.resolve (qualify schema.table name) = .ok other ∧
        schema.HasName name position ∧ schema.HasName (qualify schema.table name) other) :
    schema.OwnLookup name position :=
  ⟨iff_of_false differs apart, fun _ => answer⟩

/-- A column that has the bare name for its own. -/
theorem ownLookup_of_named (single : IsPlain schema.table) (plain : IsPlain name)
    (found : schema.named? name = some position) : schema.OwnLookup name position := by
  have has := hasName_of_named? found
  cases longer : schema.named? (qualify schema.table name) with
  | some other =>
    have taken := hasName_of_named? longer
    have answer := resolve_of_named? longer
    refine .of_not_owns ?_ ?_ (.inr ⟨other, answer, has, taken⟩)
    · rintro (⟨_, unnamed⟩ | same | ends)
      · exact unnamed other taken
      · exact has.not_ends plain same.ends
      · exact has.not_ends plain ends
    · rw [answer, ne_eq, Except.ok.injEq]
      rintro rfl
      exact has.not_ends plain taken.ends
  | none =>
    refine .of_owns ?_ (.inl ⟨has, unnamed_of_named? longer⟩)
    refine resolve_of_unqualified longer ?_
    rw [unqualified?_own single, Option.bind_some, found]

/-- A column that is the only one whose name ends in the bare name. -/
theorem ownLookup_of_ending (single : IsPlain schema.table) (absent : schema.named? name = none)
    (only : ∀ other, schema.Ends name other ↔ other = position) :
    schema.OwnLookup name position := by
  have inner : (schema.unqualified? (qualify schema.table name)).bind schema.named? = none := by
    rw [unqualified?_own single, Option.bind_some, absent]
  cases longer : schema.named? (qualify schema.table name) with
  | some other =>
    have has := hasName_of_named? longer
    obtain rfl := (only other).mp has.ends
    exact .of_owns (resolve_of_named? longer) (.inr (.inl has))
  | none =>
    have nobody := unnamed_of_named? longer
    by_cases ends : schema.Ends (qualify schema.table name) position
    · refine .of_owns (resolve_of_ending longer inner fun other => ?_) (.inr (.inr ends))
      rw [mem_endingIn]
      constructor
      · exact fun again => (only other).mp (Ends.ends again)
      · rintro rfl
        exact ends
    · have answer := resolve_of_no_ending longer inner fun other member => by
        have again : schema.Ends (qualify schema.table name) other := mem_endingIn.mp member
        exact ends ((only other).mp again.ends ▸ again)
      refine .of_not_owns ?_ (by rw [answer]; nofun) (.inl answer)
      rintro (⟨has, _⟩ | has | again)
      · exact unnamed_of_named? absent position has
      · exact nobody position has
      · exact ends again

/-- A name behind the schema's own is found in the column that the bare name denotes, or in none, or in
another one of that whole name. -/
theorem ownLookup (single : IsPlain schema.table) (plain : IsPlain name)
    (found : schema.resolve name = .ok position) : schema.OwnLookup name position := by
  rcases named_or_ending_of_resolve plain found with direct | ⟨absent, only⟩
  · exact ownLookup_of_named single plain direct
  · exact ownLookup_of_ending single absent only

end RowStore.Schema
