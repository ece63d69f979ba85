import RowStore.Engine.Statement
import RowStore.Proofs.Condition.Meaning

/-!
The columns that an update sets. Each name of the statement stands for one column of the table, the value
for it is converted to the type of that column, and of two assignments to a column the later counts.
-/

namespace RowStore

/-- Of two assignments to a column the last one wins. -/
theorem getElem?_assign (row : Row) (set : List (Nat × Value)) (position : Nat) :
    (assign row set)[position]? =
      row[position]?.map fun value => (set.reverse.lookup position).getD value := by
  induction set generalizing row with
  | nil => simp [assign]
  | cons entry rest ih =>
    obtain ⟨first, value⟩ := entry
    rw [assign, List.foldl_cons, ← assign, ih, List.reverse_cons, List.lookup_append,
      List.getElem?_set]
    cases later : rest.reverse.lookup position with
    | some last =>
      split
      · rename_i same
        subst same
        cases given : row[first]? with
        | none => simp [List.getElem?_eq_none_iff.mp given]
        | some old => simp [(List.getElem?_eq_some_iff.mp given).1]
      · simp
    | none =>
      split
      · rename_i same
        subst same
        cases given : row[first]? with
        | none => simp [List.getElem?_eq_none_iff.mp given]
        | some old => simp [(List.getElem?_eq_some_iff.mp given).1, List.lookup]
      · rename_i different
        have other : (position == first) = false := by simpa using Ne.symm different
        simp [List.lookup, other]

theorem lookup_reverse_eq_none {Item : Type} {entries : List (Nat × Item)} {key : Nat}
    (never : ∀ entry ∈ entries, entry.1 ≠ key) : entries.reverse.lookup key = none := by
  rw [List.lookup_eq_none_iff]
  intro entry member
  simpa using Ne.symm (never entry (List.mem_reverse.mp member))

/-- The last entry of a key is the one that is found from the end. -/
theorem lookup_reverse_eq_some {Item : Type} {entries : List (Nat × Item)} {index key : Nat} {item : Item}
    (found : entries[index]? = some (key, item))
    (last : ∀ later entry, index < later → entries[later]? = some entry → entry.1 ≠ key) :
    entries.reverse.lookup key = some item := by
  induction entries generalizing index with
  | nil => cases found
  | cons entry rest ih =>
    rw [List.reverse_cons, List.lookup_append]
    cases index with
    | zero =>
      cases found
      have none : rest.reverse.lookup key = none := by
        refine lookup_reverse_eq_none fun other member => ?_
        obtain ⟨later, present⟩ := List.mem_iff_getElem?.mp member
        exact last (later + 1) other (Nat.succ_pos later) present
      rw [none]
      simp
    | succ index =>
      rw [ih found fun later other after present => last (later + 1) other (Nat.succ_lt_succ after) present]
      rfl

theorem length_assign (row : Row) (set : List (Nat × Value)) : (assign row set).length = row.length := by
  induction set generalizing row with
  | nil => rfl
  | cons entry rest ih => exact (ih _).trans List.length_set

/-- What one assignment of an update comes to: the position of its column, and the value for it. -/
def assignment (schema : Schema) (name : String) (expr : Expr) : Except EngineError (Nat × Value) := do
  let position ← (schema.resolve name).mapError fun error => .eval (.lookup error)
  match schema.columns[position]? with
  | some column => return (position, ← expr.storedIn column)
  | none => throw (.eval (.columnOutsideRow position))

theorem assignment_eq_ok {schema : Schema} {name : String} {expr : Expr} {entry : Nat × Value}
    (assigned : assignment schema name expr = .ok entry) :
    schema.resolve name = .ok entry.1 ∧ ∃ column, schema.columns[entry.1]? = some column ∧
      expr.storedIn column = .ok entry.2 := by
  obtain ⟨position, resolved, assigned⟩ := Outcome.bind_eq_ok_iff.mp assigned
  rw [Outcome.mapError_eq_ok_iff] at resolved
  cases known : schema.columns[position]? with
  | none =>
    simp only [known] at assigned
    cases assigned
  | some column =>
    simp only [known] at assigned
    obtain ⟨value, stored, same⟩ := Outcome.bind_eq_ok_iff.mp assigned
    cases same
    exact ⟨resolved, column, known, stored⟩

theorem assignments_eq_ok {schema : Schema} {columns : List String} {values : List Expr}
    {set : List (Nat × Value)} (assigned : assignments schema columns values = .ok set) :
    ((columns.zip values).mapM fun pair => assignment schema pair.1 pair.2) = .ok set := by
  rw [assignments] at assigned
  split at assigned
  · cases assigned
  · exact assigned

/-- A row before and after an update. A column keeps its value unless it is assigned one, and of two values
it has the later. -/
structure SetsColumns (schema : Schema) (columns : List String) (values : List Expr) (old new : Row) :
    Prop where
  length_eq : new.length = old.length
  kept : ∀ position, (∀ name ∈ columns, schema.resolve name ≠ .ok position) →
    new[position]? = old[position]?
  set : ∀ (index position : Nat) (name : String) (expr : Expr),
    columns[index]? = some name → values[index]? = some expr → schema.resolve name = .ok position →
    (∀ later other, index < later → columns[later]? = some other →
      schema.resolve other ≠ .ok position) →
    ∃ column value, schema.columns[position]? = some column ∧ expr.storedIn column = .ok value ∧
      new[position]? = some value

theorem setsColumns_assign {schema : Schema} {columns : List String} {values : List Expr}
    {set : List (Nat × Value)} {row : Row} (assigned : assignments schema columns values = .ok set)
    (wide : row.length = schema.columns.length) :
    SetsColumns schema columns values row (assign row set) := by
  have each := assignments_eq_ok assigned
  constructor
  case length_eq => exact length_assign row set
  case kept =>
    intro position never
    have none : set.reverse.lookup position = none := by
      refine lookup_reverse_eq_none fun entry member same => ?_
      obtain ⟨pair, among, found⟩ := Outcome.exists_of_mem_mapM each member
      exact never pair.1 (List.of_mem_zip among).1 (same ▸ (assignment_eq_ok found).1)
    rw [getElem?_assign, none]
    simp
  case set =>
    intro index position name expr named given resolved last
    have here := Outcome.getElem?_of_mapM each index
    have pair : (columns.zip values)[index]? = some (name, expr) :=
      List.getElem?_zip_eq_some.mpr ⟨named, given⟩
    rw [pair] at here
    obtain ⟨⟨place, value⟩, found, done⟩ := Option.map_eq_some_iff.mp here.symm
    obtain ⟨again, column, known, stored⟩ := assignment_eq_ok done.symm
    cases again.symm.trans resolved
    refine ⟨column, value, known, stored, ?_⟩
    have lookup := lookup_reverse_eq_some found fun later entry after present same => by
      have there := Outcome.getElem?_of_mapM each later
      rw [present] at there
      obtain ⟨pair, among, assigned⟩ := Option.map_eq_some_iff.mp there
      refine last later pair.1 after (List.getElem?_zip_eq_some.mp among).1 ?_
      rw [(assignment_eq_ok assigned).1, same]
    have inside : place < row.length := by
      rw [wide]
      exact (List.getElem?_eq_some_iff.mp known).1
    rw [getElem?_assign, lookup, List.getElem?_eq_getElem inside]
    rfl

end RowStore
