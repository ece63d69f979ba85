import RowStore.Proofs.Catalog.Lawful
import RowStore.Proofs.Engine.Registries

/-!
The catalog of an engine has each table under its folded name and no schema but those that can be stored,
whatever file it was opened from and whatever statements were run.
-/

namespace RowStore.Engine

open Catalog (Lawful)

variable {engine : Engine}

theorem Opened.lawful (opened : Opened engine) : Lawful engine.catalog.tables := by
  cases opened with
  | inMemory => exact Catalog.lawful_empty
  | onDisk settings disk _ after ran =>
    obtain ⟨catalog, count, heaps, found, _, rfl⟩ := openWith_eq_ok ran
    exact Catalog.lawful_of_openAt found

theorem Moves.lawful {table : String} {state after : Engine × Disk} (moves : Moves table state after)
    (lawful : Lawful state.1.catalog.tables) : Lawful after.1.catalog.tables := by
  cases moves with
  | entered engine disk schema after named accepted => exact lawful.insert accepted
  | removed => exact lawful.erase _
  | created => exact lawful
  | dropped => exact lawful
  | worked => exact lawful

theorem MovesTo.lawful {table : String} {state after : Engine × Disk} (moved : MovesTo table state after)
    (lawful : Lawful state.1.catalog.tables) : Lawful after.1.catalog.tables := by
  induction moved with
  | refl => exact lawful
  | tail _ moves ih => exact moves.lawful ih

theorem lawful_afterAttempt (lawful : Lawful engine.catalog.tables) (attempt : Attempt) :
    Lawful (engine.afterAttempt attempt).catalog.tables := by
  rw [afterAttempt]
  rcases movesTo_execute attempt.statement (engine, attempt.disk) with same | ⟨table, _, moved⟩
  · rw [same]
    exact lawful
  · exact moved.lawful lawful

theorem lawful_reach (lawful : Lawful engine.catalog.tables) (attempts : List Attempt) :
    Lawful (engine.reach attempts).catalog.tables := by
  induction attempts generalizing engine with
  | nil => exact lawful
  | cons attempt rest ih => exact ih (lawful_afterAttempt lawful attempt)

theorem Opened.lawful_reach (opened : Opened engine) (attempts : List Attempt) :
    Lawful (engine.reach attempts).catalog.tables := Engine.lawful_reach opened.lawful attempts

end RowStore.Engine
