import RowStore.Engine.Statement
import RowStore.Proofs.Relation.Bags

/-!
A store of bags: what statements mean, without pages, addresses or files. A statement that fails leaves
the store as it is, and so does closing and opening it.
-/

namespace RowStore

/-- The tables by their folded names, each with its rows in no particular order. -/
abbrev Store : Type := String → Option Relation

/-- A row with columns set: each column has the last value that is set for it, or else its own. -/
def Row.image (set : List (Nat × Value)) (row : Row) : Row :=
  row.mapIdx fun position value => (set.reverse.lookup position).getD value

/-- The table that a statement may change. -/
def Statement.subject? : Statement → Option String
  | .createTable table _ | .dropTable table | .insert table _ => some table
  | .update target _ _ _ | .delete target _ => target.targetTable.toOption
  | .select _ | .other _ => none

/-- What is asked of a database: to run a statement, or to be closed and opened again. -/
inductive Request where
  | execute (statement : Statement)
  | restart

namespace Store

/-- A store without tables. -/
def empty : Store := fun _ => none

/-- The relation of a table. -/
def table (store : Store) (name : String) : Except EngineError Relation :=
  match store (Text.fold name) with
  | some relation => .ok relation
  | none => .error (.catalog (.tableMissing name))

/-- The store with a table entered or exchanged, or with no table of the name. -/
def enter (store : Store) (name : String) (relation : Option Relation) : Store :=
  Function.update store (Text.fold name) relation

mutual

/-- The answer of a query. -/
def answer (store : Store) : Select → Except EngineError Relation
  | ⟨items, source, condition⟩ => do
    let relation ← store.resolve source
    let predicate ← store.compileWhere relation.schema condition
    let relation ← (relation.filter predicate).mapError .eval
    if isStar items then return relation else relation.project items
termination_by query => sizeOf query

/-- A condition compiled with sub-queries answered by the store. -/
def compileWhere (store : Store) (schema : Schema) : Option Expr → Except EngineError Predicate
  | none => .ok .always
  | some condition =>
    compile schema condition (some fun query _ => do return (← store.answer query).rows)
termination_by condition => sizeOf condition
decreasing_by
  rename_i member
  have := Expr.sizeOf_lt_of_mem_subqueries member
  rw [Option.some.sizeOf_spec]
  omega

/-- The relation that a source gives. -/
def resolve (store : Store) : Source → Except EngineError Relation
  | .table name label => do return (← store.table name).labelled label
  | .select query label => do return (← store.answer query).labelled label
  | .join kind left right condition => do
    if kind == .right || kind == .full then throw (.unsupported (.join kind))
    let left ← store.resolve left
    let right ← store.resolve right
    let predicate ← store.compileWhere (Relation.joinSchema left right) condition
    (Relation.join kind predicate left right).mapError .eval
termination_by source => sizeOf source

end

/-- A row that can be stored: it is one of the schema, and a page has room for it. -/
def checkFits (schema : Schema) (row : Row) : Except EngineError Unit := do
  (row.check schema).mapError fun cause => .storage (.mismatch cause)
  let size := row.width schema.columns.length
  if maxRowSize < size then throw (.storage (.rowTooLarge size))

/-- A new table has no rows. -/
def create (store : Store) (table : String) (specs : List ColumnSpec) : Except EngineError Store := do
  if (store (Text.fold table)).isSome then throw (.catalog (.tableExists table))
  let schema : Schema := ⟨table, ← specs.mapM ColumnSpec.column⟩
  schema.check.mapError fun fault => .catalog (.schema fault)
  return store.enter table (some ⟨schema, []⟩)

def drop (store : Store) (table : String) : Except EngineError Store := do
  let _ ← store.table table
  return store.enter table none

/-- Inserted rows come to those that are there. -/
def insert (store : Store) (table : String) (rows : List (List Expr)) : Except EngineError Store := do
  let relation ← store.table table
  let rows ← rows.mapM (buildRow relation.schema)
  let _ ← rows.mapM (checkFits relation.schema)
  return store.enter table (some { relation with rows := rows ++ relation.rows })

/-- Exactly the rows that meet the condition are gone. -/
def delete (store : Store) (target : Source) (condition : Option Expr) : Except EngineError Store := do
  let table ← target.targetTable
  let relation ← store.table table
  let predicate ← store.compileWhere relation.schema condition
  let _ ← (relation.rows.mapM predicate.test).mapError .eval
  let kept := relation.rows.filter fun row => !predicate.accepts row
  return store.enter table (some { relation with rows := kept })

/-- Exactly the rows that meet the condition are exchanged for their images. -/
def update (store : Store) (target : Source) (columns : List String) (values : List Expr)
    (condition : Option Expr) : Except EngineError Store := do
  let table ← target.targetTable
  let relation ← store.table table
  let set ← assignments relation.schema columns values
  let predicate ← store.compileWhere relation.schema condition
  let _ ← (relation.rows.mapM predicate.test).mapError .eval
  let images := (relation.rows.filter predicate.accepts).map (Row.image set)
  let _ ← images.mapM (checkFits relation.schema)
  let kept := relation.rows.filter fun row => !predicate.accepts row
  return store.enter table (some { relation with rows := images ++ kept })

/-- The store after a statement that succeeds. -/
def execute (store : Store) : Statement → Except EngineError Store
  | .createTable table columns => store.create table columns
  | .dropTable table => store.drop table
  | .insert table rows => store.insert table rows
  | .select query => do
    let _ ← store.answer query
    return store
  | .update target columns values condition => store.update target columns values condition
  | .delete target condition => store.delete target condition
  | .other kind => .error (.unsupported (.statement kind))

/-- Whether a request succeeds, and the store after it. -/
def perform (store : Store) : Request → Bool × Store
  | .restart => (true, store)
  | .execute statement =>
    match store.execute statement with
    | .ok next => (true, next)
    | .error _ => (false, store)

/-- Which of some requests succeed one after another, and the store after them. -/
def performAll (store : Store) : List Request → List Bool × Store
  | [] => ([], store)
  | request :: rest =>
    let (done, next) := store.perform request
    let (later, last) := next.performAll rest
    (done :: later, last)

variable {store next : Store} {key : String}

theorem enter_self (store : Store) (table : String) (entry : Option Relation) :
    store.enter table entry (Text.fold table) = entry :=
  Function.update_self _ _ _

theorem enter_other {table : String} (store : Store) (entry : Option Relation)
    (other : key ≠ Text.fold table) : store.enter table entry key = store key :=
  Function.update_of_ne other _ _

theorem execute_other {statement : Statement} (executed : store.execute statement = .ok next)
    (other : ∀ table, statement.subject? = some table → key ≠ Text.fold table) :
    next key = store key := by
  cases statement with
  | createTable table columns =>
    rw [execute, create] at executed
    split at executed
    · cases executed
    · simp only [Outcome.bind_eq_ok_iff] at executed
      obtain ⟨_, _, _, _, ⟨⟩⟩ := executed
      exact store.enter_other _ (other table rfl)
  | dropTable table =>
    simp only [execute, drop, Outcome.bind_eq_ok_iff] at executed
    obtain ⟨_, _, ⟨⟩⟩ := executed
    exact store.enter_other _ (other table rfl)
  | insert table rows =>
    simp only [execute, insert, Outcome.bind_eq_ok_iff] at executed
    obtain ⟨_, _, _, _, _, _, ⟨⟩⟩ := executed
    exact store.enter_other _ (other table rfl)
  | select query =>
    simp only [execute, Outcome.bind_eq_ok_iff] at executed
    obtain ⟨_, _, ⟨⟩⟩ := executed
    rfl
  | update target columns values condition =>
    simp only [execute, update, Outcome.bind_eq_ok_iff] at executed
    obtain ⟨table, named, _, _, _, _, _, _, _, _, _, _, ⟨⟩⟩ := executed
    exact store.enter_other _ (other table (by rw [Statement.subject?, named]; rfl))
  | delete target condition =>
    simp only [execute, delete, Outcome.bind_eq_ok_iff] at executed
    obtain ⟨table, named, _, _, _, _, _, _, ⟨⟩⟩ := executed
    exact store.enter_other _ (other table (by rw [Statement.subject?, named]; rfl))
  | other kind => cases executed

/-- No statement changes another table than its own. -/
theorem perform_other (store : Store) (statement : Statement)
    (other : ∀ table, statement.subject? = some table → key ≠ Text.fold table) :
    (store.perform (.execute statement)).2 key = store key := by
  rw [perform]
  cases executed : store.execute statement with
  | ok next => exact execute_other executed other
  | error => rfl

end Store

end RowStore
