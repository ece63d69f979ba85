/-!
Steps: computations that change a state and may fail. What a step has changed before it fails stays
changed, so a failed step tells the state it has reached as well.
-/

namespace RowStore

/-- A computation on a state that answers or fails, and keeps its changes either way. -/
abbrev Step (State Error Answer : Type) := ExceptT Error (StateM State) Answer

namespace Step

variable {State Error Answer : Type}

/-- The outcome of a step and the state it reaches. -/
def runOn (step : Step State Error Answer) (state : State) : Except Error Answer × State :=
  StateT.run (ExceptT.run step) state

/-- A result that depends on no state. -/
def ofExcept (result : Except Error Answer) : Step State Error Answer := ExceptT.mk (pure result)

/-- A step whose failures are seen as those of another kind. -/
def mapError {Other : Type} (step : Step State Error Answer) (wrap : Error → Other) :
    Step State Other Answer :=
  ExceptT.mk fun state =>
    let (result, state) := step.runOn state
    (result.mapError wrap, state)

/-- A step on the second part of a state. -/
def onSecond {First : Type} (step : Step State Error Answer) : Step (First × State) Error Answer :=
  ExceptT.mk fun (first, state) =>
    let (result, state) := step.runOn state
    (result, (first, state))

@[simp]
theorem runOn_pure (answer : Answer) (state : State) :
    runOn (pure answer : Step State Error Answer) state = (.ok answer, state) := rfl

@[simp]
theorem runOn_throw (error : Error) (state : State) :
    runOn (throw error : Step State Error Answer) state = (.error error, state) := rfl

@[simp]
theorem runOn_get (state : State) :
    runOn (get : Step State Error State) state = (.ok state, state) := rfl

@[simp]
theorem runOn_set (next state : State) :
    runOn (set next : Step State Error PUnit) state = (.ok ⟨⟩, next) := rfl

@[simp]
theorem runOn_modify (change : State → State) (state : State) :
    runOn (modify change : Step State Error PUnit) state = (.ok ⟨⟩, change state) := rfl

@[simp]
theorem runOn_ofExcept (result : Except Error Answer) (state : State) :
    runOn (ofExcept result : Step State Error Answer) state = (result, state) := rfl

@[simp]
theorem runOn_mapError {Other : Type} (step : Step State Error Answer) (wrap : Error → Other)
    (state : State) :
    (step.mapError wrap).runOn state =
      ((step.runOn state).1.mapError wrap, (step.runOn state).2) := rfl

@[simp]
theorem runOn_onSecond {First : Type} (step : Step State Error Answer) (first : First)
    (state : State) :
    step.onSecond.runOn (first, state) = ((step.runOn state).1, (first, (step.runOn state).2)) := rfl

/-- A failed step is not gone on from. -/
theorem runOn_bind {Next : Type} (step : Step State Error Answer)
    (next : Answer → Step State Error Next) (state : State) :
    (step >>= next).runOn state =
      match step.runOn state with
      | (.ok answer, state) => (next answer).runOn state
      | (.error error, state) => (.error error, state) := by
  change ExceptT.run (ExceptT.mk (StateT.bind step (ExceptT.bindCont next))) state = _
  simp only [StateT.bind, ExceptT.run, ExceptT.mk, runOn, StateT.run]
  rcases step state with ⟨result | result, reached⟩ <;> rfl

end Step

end RowStore
