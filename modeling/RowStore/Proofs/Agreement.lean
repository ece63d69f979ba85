import Mathlib

/-!
Agreement of results: both answer, and the answers are related, or both fail. How they fail is of no
account.
-/

namespace RowStore

variable {Answer Other Next Later Third Error Fault : Type}

/-- Two results that both fail, or whose answers are related. -/
inductive Agrees (same : Answer → Other → Prop) : Except Error Answer → Except Fault Other → Prop where
  | answered (answer : Answer) (other : Other) (related : same answer other) :
      Agrees same (.ok answer) (.ok other)
  | failed (error : Error) (fault : Fault) : Agrees same (.error error) (.error fault)

namespace Agrees

variable {same : Answer → Other → Prop} {related : Next → Later → Prop}
  {result : Except Error Answer} {other : Except Fault Other}

theorem bind {use : Answer → Except Error Next} {apply : Other → Except Fault Later}
    (first : Agrees same result other)
    (next : ∀ answer other, same answer other → Agrees related (use answer) (apply other)) :
    Agrees related (result >>= use) (other >>= apply) := by
  cases first with
  | answered answer other held => exact next answer other held
  | failed error fault => exact .failed error fault

theorem map {use : Answer → Next} {apply : Other → Later} (first : Agrees same result other)
    (next : ∀ answer other, same answer other → related (use answer) (apply other)) :
    Agrees related (result.map use) (other.map apply) := by
  cases first with
  | answered answer other held => exact .answered _ _ (next answer other held)
  | failed error fault => exact .failed error fault

theorem mapLeft {use : Answer → Next} {related : Next → Other → Prop} (first : Agrees same result other)
    (next : ∀ answer other, same answer other → related (use answer) other) :
    Agrees related (result.map use) other := by
  cases first with
  | answered answer other held => exact .answered _ _ (next answer other held)
  | failed error fault => exact .failed error fault

theorem mapRight {use : Other → Next} {related : Answer → Next → Prop} (first : Agrees same result other)
    (next : ∀ answer other, same answer other → related answer (use other)) :
    Agrees related result (other.map use) := by
  cases first with
  | answered answer other held => exact .answered _ _ (next answer other held)
  | failed error fault => exact .failed error fault

theorem errorLeft {Cause : Type} (wrap : Error → Cause) (first : Agrees same result other) :
    Agrees same (result.mapError wrap) other := by
  cases first with
  | answered answer other held => exact .answered answer other held
  | failed error fault => exact .failed (wrap error) fault

theorem errorRight {Cause : Type} (wrap : Fault → Cause) (first : Agrees same result other) :
    Agrees same result (other.mapError wrap) := by
  cases first with
  | answered answer other held => exact .answered answer other held
  | failed error fault => exact .failed error (wrap fault)

theorem mono {wider : Answer → Other → Prop} (first : Agrees same result other)
    (implied : ∀ answer other, same answer other → wider answer other) :
    Agrees wider result other := by
  cases first with
  | answered answer other held => exact .answered answer other (implied answer other held)
  | failed error fault => exact .failed error fault

/-- Related answers are the answers of the two results. -/
theorem known (first : Agrees same result other) :
    Agrees (fun answer later => result = .ok answer ∧ other = .ok later ∧ same answer later)
      result other := by
  cases first with
  | answered answer other held => exact .answered answer other ⟨rfl, rfl, held⟩
  | failed error fault => exact .failed error fault

theorem refl {same : Answer → Answer → Prop} (reflexive : ∀ answer, same answer answer)
    (result : Except Error Answer) : Agrees same result result := by
  cases result with
  | ok answer => exact .answered answer answer (reflexive answer)
  | error error => exact .failed error error

/-- Two ways to go on from one result. -/
theorem onward {use : Answer → Except Error Next} {apply : Answer → Except Error Later}
    (result : Except Error Answer) (next : ∀ answer, Agrees related (use answer) (apply answer)) :
    Agrees related (result >>= use) (result >>= apply) := by
  cases result with
  | ok answer => exact next answer
  | error error => exact .failed error error

theorem trans {Cause : Type} {first : Answer → Other → Prop} {second : Other → Third → Prop}
    {whole : Answer → Third → Prop} {third : Except Cause Third} (left : Agrees first result other)
    (right : Agrees second other third)
    (joined : ∀ answer other third, first answer other → second other third → whole answer third) :
    Agrees whole result third := by
  cases left with
  | answered answer middle held =>
    cases right with
    | answered _ last kept => exact .answered answer last (joined answer middle last held kept)
  | failed error fault =>
    cases right with
    | failed _ cause => exact .failed error cause

/-- Results over the same inputs agree if they do for each input. -/
theorem mapM {Input : Type} {test : Input → Except Error Answer} {check : Input → Except Fault Other}
    (each : ∀ input, Agrees same (test input) (check input)) (inputs : List Input) :
    Agrees (List.Forall₂ same) (inputs.mapM test) (inputs.mapM check) := by
  induction inputs with
  | nil => exact .answered [] [] .nil
  | cons input rest ih =>
    rw [List.mapM_cons, List.mapM_cons]
    refine (each input).bind fun answer other held => ih.bind fun answers others later => ?_
    exact .answered _ _ (.cons held later)

/-- Results over the same inputs in another order agree up to that order. -/
theorem mapM_perm {Input : Type} {inputs others : List Input} (test : Input → Except Error Answer)
    (perm : inputs.Perm others) :
    Agrees List.Perm (inputs.mapM test) (others.mapM test) := by
  induction perm with
  | nil => exact .answered [] [] .nil
  | cons input _ ih =>
    rw [List.mapM_cons, List.mapM_cons]
    refine (refl (fun _ => rfl) (test input)).bind fun answer _ same => ih.bind fun _ _ perm => ?_
    subst same
    exact .answered _ _ (perm.cons answer)
  | swap first second rest =>
    simp only [List.mapM_cons]
    cases test first with
    | error cause =>
      cases test second with
      | error fault => exact .failed fault cause
      | ok later => exact .failed cause cause
    | ok answer =>
      cases test second with
      | error fault => exact .failed fault fault
      | ok later =>
        cases rest.mapM test with
        | error cause => exact .failed cause cause
        | ok answers => exact .answered _ _ (.swap answer later answers)
  | trans _ _ ih₁ ih₂ => exact ih₁.trans ih₂ fun _ _ _ => List.Perm.trans

end Agrees

end RowStore
