import RowStore.Proofs.Steps

/-!
Invariants of steps: a property of the state that a step keeps whether it succeeds or fails, together
with what the step may fail for.
-/

namespace RowStore.Step

variable {State Error Answer Next Item : Type} {holds : State → Prop} {cause : Error → Prop}

/-- A step that keeps a property of the state, and fails for a given cause only. -/
def Sustains (holds : State → Prop) (cause : Error → Prop) (step : Step State Error Answer) : Prop :=
  ∀ state, holds state →
    holds (step.runOn state).2 ∧ ∀ error, (step.runOn state).1 = .error error → cause error

namespace Sustains

variable {step : Step State Error Answer}

theorem pure (answer : Answer) :
    Sustains holds cause (Pure.pure answer : Step State Error Answer) := by
  intro state held
  exact ⟨held, fun error never => by cases never⟩

theorem get : Sustains holds cause (MonadState.get : Step State Error State) := by
  intro state held
  exact ⟨held, fun error never => by cases never⟩

/-- A result that depends on no state changes none. -/
theorem ofExcept {result : Except Error Answer}
    (fails : ∀ error, result = .error error → cause error) :
    Sustains holds cause (Step.ofExcept result) := by
  intro state held
  exact ⟨held, fails⟩

theorem bind {next : Answer → Step State Error Next} (first : Sustains holds cause step)
    (later : ∀ answer, Sustains holds cause (next answer)) : Sustains holds cause (step >>= next) := by
  intro state held
  have reached := first state held
  rw [runOn_bind]
  generalize step.runOn state = outcome at reached
  obtain ⟨result, middle⟩ := outcome
  cases result with
  | error error =>
    refine ⟨reached.1, fun other same => ?_⟩
    cases same
    exact reached.2 error rfl
  | ok answer => exact later answer middle reached.1

theorem discard (sustains : Sustains holds cause step) : Sustains holds cause (discard step) := by
  intro state held
  have reached := sustains state held
  rw [runOn_discard]
  generalize step.runOn state = outcome at reached
  obtain ⟨result, after⟩ := outcome
  cases result with
  | error error =>
    refine ⟨reached.1, fun other same => ?_⟩
    cases same
    exact reached.2 error rfl
  | ok answer => exact ⟨reached.1, fun error never => by cases never⟩

theorem forM {act : Item → Step State Error PUnit} (items : List Item)
    (each : ∀ item ∈ items, Sustains holds cause (act item)) :
    Sustains holds cause (items.forM act) := by
  induction items with
  | nil => exact pure _
  | cons item rest ih =>
    refine (each item List.mem_cons_self).bind fun _ => ?_
    exact ih fun other member => each other (List.mem_cons_of_mem _ member)

theorem mapM {act : Item → Step State Error Answer} (items : List Item)
    (each : ∀ item ∈ items, Sustains holds cause (act item)) :
    Sustains holds cause (items.mapM act) := by
  induction items with
  | nil => exact pure _
  | cons item rest ih =>
    rw [List.mapM_cons]
    refine (each item List.mem_cons_self).bind fun answer => ?_
    exact (ih fun other member => each other (List.mem_cons_of_mem _ member)).bind fun _ => pure _

end Sustains

end RowStore.Step
