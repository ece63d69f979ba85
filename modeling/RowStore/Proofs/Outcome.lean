import Mathlib

/-!
Results in order: what it says of every element that a list of results succeeds as a whole.
-/

namespace RowStore.Outcome

variable {Input Error Answer : Type}

theorem bind_eq_ok_iff {Next : Type} {result : Except Error Answer} {use : Answer → Except Error Next}
    {next : Next} :
    (result >>= use) = .ok next ↔ ∃ answer, result = .ok answer ∧ use answer = .ok next := by
  cases result with
  | error error => simp [bind, Except.bind]
  | ok answer => simp [bind, Except.bind]

theorem map_eq_ok_iff {Next : Type} {result : Except Error Answer} {use : Answer → Next} {next : Next} :
    result.map use = .ok next ↔ ∃ answer, result = .ok answer ∧ use answer = next := by
  cases result with
  | error error => simp [Except.map]
  | ok answer => simp [Except.map]

theorem mapError_eq_ok_iff {Cause : Type} {wrap : Error → Cause} {result : Except Error Answer}
    {answer : Answer} : result.mapError wrap = .ok answer ↔ result = .ok answer := by
  cases result with
  | error error => simp [Except.mapError]
  | ok found => simp [Except.mapError]

theorem mapM_cons (test : Input → Except Error Answer) (input : Input) (rest : List Input) :
    (input :: rest).mapM test =
      match test input with
      | .error error => .error error
      | .ok answer => (rest.mapM test).map (answer :: ·) := by
  rw [List.mapM_cons]
  cases test input with
  | error error => rfl
  | ok answer =>
    cases rest.mapM test <;> rfl

/-- A list of results succeeds exactly if each of them does. -/
theorem mapM_eq_ok_iff (test : Input → Except Error Answer) (inputs : List Input)
    (answers : List Answer) :
    inputs.mapM test = .ok answers ↔
      List.Forall₂ (fun input answer => test input = .ok answer) inputs answers := by
  induction inputs generalizing answers with
  | nil =>
    rw [List.mapM_nil, List.forall₂_nil_left_iff]
    exact ⟨fun same => (Except.ok.inj same).symm, fun same => same ▸ rfl⟩
  | cons input rest ih =>
    rw [mapM_cons, List.forall₂_cons_left_iff]
    cases first : test input with
    | error error => simp
    | ok answer =>
      cases later : rest.mapM test with
      | error error =>
        simp only [Except.map, reduceCtorEq, false_iff, not_exists, not_and]
        rintro _ others _ holds
        rw [(ih others).mpr holds] at later
        cases later
      | ok others =>
        have holds := (ih others).mp later
        simp only [Except.map, Except.ok.injEq]
        constructor
        · rintro rfl
          exact ⟨answer, others, rfl, holds, rfl⟩
        · rintro ⟨_, rest, rfl, found, rfl⟩
          rw [← ih, later] at found
          rw [Except.ok.inj found]

/-- Items are marked with the answers of a test as soon as it answers for all of them. -/
theorem mapM_marked (test : Input → Except Error Bool) (items : List Input) :
    (items.mapM fun item => do return (item, ← test item)) =
      (items.mapM test).map fun _ => items.map fun item =>
        (item, (test item).toOption.getD false) := by
  induction items with
  | nil => rfl
  | cons item rest ih =>
    rw [mapM_cons, mapM_cons, ih]
    cases tested : test item with
    | error error => rfl
    | ok accepted =>
      rw [List.map_cons, tested]
      cases rest.mapM test <;> rfl

/-- Items that are used once they have passed a check. -/
theorem mapM_checked {Checked : Type} (check : Input → Except Error Checked) (use : Input → Answer)
    (items : List Input) :
    (items.mapM fun item => do
      let _ ← check item
      return use item) = (items.mapM check).map fun _ => items.map use := by
  induction items with
  | nil => rfl
  | cons item rest ih =>
    rw [mapM_cons, mapM_cons, ih]
    cases check item with
    | error error => rfl
    | ok _ => cases rest.mapM check <;> rfl

theorem exists_of_mem_mapM {test : Input → Except Error Answer} {inputs : List Input}
    {answers : List Answer} (done : inputs.mapM test = .ok answers) {answer : Answer}
    (member : answer ∈ answers) : ∃ input ∈ inputs, test input = .ok answer := by
  have each := (mapM_eq_ok_iff test inputs answers).mp done
  induction each with
  | nil => simp at member
  | cons first later ih =>
    rcases List.mem_cons.mp member with rfl | member
    · exact ⟨_, List.mem_cons_self, first⟩
    · obtain ⟨input, among, found⟩ := ih ((mapM_eq_ok_iff _ _ _).mpr later) member
      exact ⟨input, List.mem_cons_of_mem _ among, found⟩

theorem exists_of_mapM_eq_ok {test : Input → Except Error Answer} {inputs : List Input}
    {answers : List Answer} (done : inputs.mapM test = .ok answers) {input : Input}
    (member : input ∈ inputs) : ∃ answer, test input = .ok answer := by
  have each := (mapM_eq_ok_iff test inputs answers).mp done
  clear done
  induction each with
  | nil => simp at member
  | cons first later ih =>
    rcases List.mem_cons.mp member with rfl | member
    · exact ⟨_, first⟩
    · exact ih member

theorem mem_of_mapM_eq_ok {test : Input → Except Error Answer} {inputs : List Input}
    {answers : List Answer} (done : inputs.mapM test = .ok answers) {input : Input} {answer : Answer}
    (member : input ∈ inputs) (found : test input = .ok answer) : answer ∈ answers := by
  have each := (mapM_eq_ok_iff test inputs answers).mp done
  clear done
  induction each with
  | nil => simp at member
  | cons first later ih =>
    rcases List.mem_cons.mp member with rfl | member
    · rw [Except.ok.inj (found.symm.trans first)]
      exact List.mem_cons_self
    · exact List.mem_cons_of_mem _ (ih member)

/-- The results of a list are found where their inputs are. -/
theorem getElem?_of_mapM {test : Input → Except Error Answer} {inputs : List Input}
    {answers : List Answer} (done : inputs.mapM test = .ok answers) (index : Nat) :
    inputs[index]?.map test = answers[index]?.map .ok := by
  have each := (mapM_eq_ok_iff test inputs answers).mp done
  clear done
  induction each generalizing index with
  | nil => rfl
  | cons first _ ih =>
    cases index with
    | zero => exact congrArg some first
    | succ index => exact ih index

/-- A list of results fails as one of them does. -/
theorem exists_of_mapM_eq_error {test : Input → Except Error Answer} {inputs : List Input}
    {error : Error} (failed : inputs.mapM test = .error error) :
    ∃ input ∈ inputs, test input = .error error := by
  induction inputs with
  | nil => cases failed
  | cons input rest ih =>
    rw [mapM_cons] at failed
    cases first : test input with
    | error cause =>
      rw [first] at failed
      cases failed
      exact ⟨input, List.mem_cons_self, first⟩
    | ok answer =>
      rw [first] at failed
      cases later : rest.mapM test with
      | error cause =>
        simp only [later, Except.map, Except.error.injEq] at failed
        obtain ⟨bad, member, faulty⟩ := ih (later.trans (congrArg _ failed))
        exact ⟨bad, List.mem_cons_of_mem _ member, faulty⟩
      | ok answers => simp [later, Except.map] at failed

/-- A good answer, or else a failure that is not a bad one. -/
def Avoids (bad : Error → Prop) (good : Answer → Prop) : Except Error Answer → Prop
  | .ok answer => good answer
  | .error error => ¬ bad error

namespace Avoids

variable {bad : Error → Prop} {good better : Answer → Prop} {result : Except Error Answer}

theorem mono (avoids : Avoids bad good result) (implies : ∀ answer, good answer → better answer) :
    Avoids bad better result := by
  cases result with
  | error error => exact avoids
  | ok answer => exact implies answer avoids

theorem of_ok (avoids : Avoids bad good result) (holds : ∀ answer, result = .ok answer → better answer) :
    Avoids bad better result := by
  cases result with
  | error error => exact avoids
  | ok answer => exact holds answer rfl

theorem bind {Next : Type} {use : Answer → Except Error Next} {later : Next → Prop}
    (first : Avoids bad good result) (next : ∀ answer, good answer → Avoids bad later (use answer)) :
    Avoids bad later (result >>= use) := by
  cases result with
  | error error => exact first
  | ok answer => exact next answer first

theorem mapError {Cause : Type} {wrap : Error → Cause} {worse : Cause → Prop}
    (avoids : Avoids bad good result) (kept : ∀ error, worse (wrap error) → bad error) :
    Avoids worse good (result.mapError wrap) := by
  cases result with
  | error error => exact fun worst => avoids (kept error worst)
  | ok answer => exact avoids

theorem mapM {test : Input → Except Error Answer} {inputs : List Input}
    (each : ∀ input ∈ inputs, Avoids bad good (test input)) :
    Avoids bad (fun answers => ∀ answer ∈ answers, good answer) (inputs.mapM test) := by
  cases ran : inputs.mapM test with
  | error error =>
    obtain ⟨input, member, failed⟩ := exists_of_mapM_eq_error ran
    have avoids := each input member
    rwa [failed] at avoids
  | ok answers =>
    intro answer member
    obtain ⟨input, among, found⟩ := exists_of_mem_mapM ran member
    have avoids := each input among
    rwa [found] at avoids

end Avoids

end RowStore.Outcome
