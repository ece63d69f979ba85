import Mathlib
import RowStore.Step

/-!
Steps one after another over a list. The first that fails ends them, and the state stays as that one
leaves it.
-/

namespace RowStore.Step

variable {State Error Answer Item : Type}

theorem runOn_map {Other : Type} (use : Answer → Other) (step : Step State Error Answer)
    (state : State) :
    runOn (use <$> step) state = ((step.runOn state).1.map use, (step.runOn state).2) := by
  rw [map_eq_pure_bind, runOn_bind]
  rcases step.runOn state with ⟨result | answer, after⟩ <;> rfl

theorem runOn_discard (step : Step State Error Answer) (state : State) :
    runOn (discard step) state = ((step.runOn state).1.map fun _ => (), (step.runOn state).2) :=
  runOn_map (fun _ => ()) step state

theorem runOn_forM_cons (act : Item → Step State Error PUnit) (item : Item) (rest : List Item)
    (state : State) :
    runOn ((item :: rest).forM act) state =
      match (act item).runOn state with
      | (.ok _, state) => runOn (rest.forM act) state
      | (.error error, state) => (.error error, state) := by
  refine (runOn_bind (act item) (fun _ => rest.forM act) state).trans ?_
  rcases (act item).runOn state with ⟨result | answer, after⟩ <;> rfl

/-- A list of steps is its front part and then, if that succeeds, the rest. -/
theorem runOn_forM_append (act : Item → Step State Error PUnit) (front back : List Item)
    (state : State) :
    runOn ((front ++ back).forM act) state =
      match runOn (front.forM act) state with
      | (.ok _, state) => runOn (back.forM act) state
      | (.error error, state) => (.error error, state) := by
  induction front generalizing state with
  | nil => rfl
  | cons item rest ih =>
    rw [List.cons_append, runOn_forM_cons, runOn_forM_cons]
    rcases (act item).runOn state with ⟨result | answer, middle⟩
    · rfl
    · exact ih middle

theorem runOn_mapM_cons (act : Item → Step State Error Answer) (item : Item) (rest : List Item)
    (state : State) :
    runOn ((item :: rest).mapM act) state =
      match (act item).runOn state with
      | (.ok answer, state) =>
        ((runOn (rest.mapM act) state).1.map (answer :: ·), (runOn (rest.mapM act) state).2)
      | (.error error, state) => (.error error, state) := by
  rw [List.mapM_cons, runOn_bind]
  rcases (act item).runOn state with ⟨result | answer, after⟩
  · rfl
  · simp only [bind_pure_comp, runOn_map]

/-- A step that leads from every state to a related one, whether it succeeds or fails. -/
def Respects (related : State → State → Prop) (step : Step State Error Answer) : Prop :=
  ∀ state, related state (step.runOn state).2

namespace Respects

variable {Next : Type} {related : State → State → Prop} {step : Step State Error Answer}

theorem discard (respects : Respects related step) : Respects related (discard step) := by
  intro state
  rw [runOn_discard]
  exact respects state

theorem bind [IsTrans State related] {next : Answer → Step State Error Next}
    (first : Respects related step) (later : ∀ answer, Respects related (next answer)) :
    Respects related (step >>= next) := by
  intro state
  have reached := first state
  rw [runOn_bind]
  generalize step.runOn state = outcome at reached
  obtain ⟨result, middle⟩ := outcome
  cases result with
  | error error => exact reached
  | ok answer => exact IsTrans.trans _ _ _ reached (later answer middle)

variable [Std.Refl related] [IsTrans State related]

theorem forM {act : Item → Step State Error PUnit} (each : ∀ item, Respects related (act item))
    (items : List Item) : Respects related (items.forM act) := by
  induction items with
  | nil => exact Std.Refl.refl
  | cons item rest ih => exact (each item).bind fun _ => ih

theorem mapM {act : Item → Step State Error Answer} (each : ∀ item, Respects related (act item))
    (items : List Item) : Respects related (items.mapM act) := by
  induction items with
  | nil => exact Std.Refl.refl
  | cons item rest ih =>
    rw [List.mapM_cons]
    exact (each item).bind fun _ => ih.bind fun _ => Std.Refl.refl

end Respects

end RowStore.Step
