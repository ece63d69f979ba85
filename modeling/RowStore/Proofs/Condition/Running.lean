import RowStore.Engine.Select
import RowStore.Proofs.Condition.Meaning
import RowStore.Proofs.Steps

/-!
Which sub-queries are run when a condition is compiled. The parts that `AND` and `OR` join are gone
through from left to right up to the first that fails, and a part runs its sub-query after its column
was found. What a sub-query is answered may depend on those that were run before it.
-/

namespace RowStore

variable {schema : Schema}

namespace Expr

/-- The sub-queries of all `IN` from left to right, wherever they stand in an expression. -/
def inQueries : Expr → List Select
  | .literal _ => []
  | .column _ _ => []
  | .and left right => left.inQueries ++ right.inQueries
  | .or left right => left.inQueries ++ right.inQueries
  | .not operand => operand.inQueries
  | .compare _ left right => left.inQueries ++ right.inQueries
  | .isNull operand _ => operand.inQueries
  | .inSelect operand query => operand.inQueries ++ [query]

/-- The parts of a condition that `AND` and `OR` join, from left to right. -/
def parts : Expr → List Expr
  | .and left right => left.parts ++ right.parts
  | .or left right => left.parts ++ right.parts
  | part => [part]

theorem flatMap_inQueries_parts (condition : Expr) :
    condition.parts.flatMap inQueries = condition.inQueries := by
  induction condition using parts.induct with
  | case1 left right leftSame rightSame =>
    rw [parts, List.flatMap_append, leftSame, rightSame, inQueries]
  | case2 left right leftSame rightSame =>
    rw [parts, List.flatMap_append, leftSame, rightSame, inQueries]
  | case3 part noAnd noOr => rw [parts, List.flatMap_singleton] <;> assumption

/-- What names a column has no sub-query. -/
theorem inQueries_of_columnOf {operand : Expr} {position : Nat}
    (found : schema.columnOf operand = .ok position) : operand.inQueries = [] := by
  cases operand with
  | column table name => rfl
  | _ => cases found

/-- Columns and literals, which can be compared, have no sub-queries. -/
theorem inQueries_of_compileComparison {operator : Operator} {left right : Expr} {predicate : Predicate}
    (compiled : schema.compileComparison operator left right = .ok predicate) :
    left.inQueries ++ right.inQueries = [] := by
  rw [Schema.compileComparison.eq_def] at compiled
  split at compiled
  case h_4 | h_5 => cases compiled
  all_goals rfl

end Expr

/-- How sub-queries are answered, by those that were run before. -/
abbrev Answering : Type := List Select → Select → Except EngineError (List Row)

/-- A runner to which it does not matter where a sub-query stands. -/
def SubqueryRunner.uniform {m : Type → Type} (run? : Option (Select → m (List Row)))
    (condition : Expr) : SubqueryRunner m condition :=
  run?.map fun run query _ => run query

/-- A runner that keeps a list of the sub-queries it is asked to run, and answers them where it can. -/
def recorder (answering : Option Answering) (condition : Expr) : SubqueryRunner Traced condition :=
  .uniform (answering.map fun answer query => do
    let earlier ← get
    set (earlier ++ [query])
    Step.ofExcept (answer earlier query)) condition

/-- A condition compiled after some sub-queries have been run, and the sub-queries run by then. -/
def compileAfter (schema : Schema) (condition : Expr) (answering : Option Answering)
    (earlier : List Select) : Except EngineError Predicate × List Select :=
  Step.runOn (compile schema condition (recorder answering condition)) earlier

/-- The outcome for two conditions that are joined: the second one counts where the first one is
compiled, and goes on after its sub-queries. -/
def joinAfter (combine : Predicate → Predicate → Predicate)
    (first : Except EngineError Predicate × List Select)
    (second : List Select → Except EngineError Predicate × List Select) :
    Except EngineError Predicate × List Select :=
  match first with
  | (.ok predicate, calls) => ((second calls).1.map (combine predicate), (second calls).2)
  | (.error error, calls) => (.error error, calls)

/-- A condition compiled, and rows tested with what it is compiled to. -/
def compileAndTest (schema : Schema) (condition : Expr) (answering : Option Answering)
    (rows : List Row) : Traced (List Bool) := do
  let predicate ← compile schema condition (recorder answering condition)
  rows.mapM fun row => liftEval (predicate.test row)

/-- Why a part of a condition fails without a sub-query being run for it. -/
inductive Faulty (schema : Schema) (answering : Option Answering) : Expr → EvalError → Prop where
  | compare {operator : Operator} {left right : Expr} {error : EvalError}
      (failed : schema.compileComparison operator left right = .error error) :
      Faulty schema answering (.compare operator left right) error
  | isNull {operand : Expr} {negated : Bool} {error : EvalError}
      (failed : schema.columnOf operand = .error error) :
      Faulty schema answering (.isNull operand negated) error
  | inSelect {operand : Expr} {query : Select} {error : EvalError}
      (failed : schema.columnOf operand = .error error) :
      Faulty schema answering (.inSelect operand query) error
  | noSubqueries {operand : Expr} {query : Select} {position : Nat}
      (found : schema.columnOf operand = .ok position) (none : answering = none) :
      Faulty schema answering (.inSelect operand query) (.unsupported .noSubqueries)
  | negation {operand : Expr} : Faulty schema answering (.not operand) (.unsupported .negation)
  | literal {value : Literal} :
      Faulty schema answering (.literal value) (.unsupported (.condition (.literal value)))
  | column {table : Option String} {name : String} :
      Faulty schema answering (.column table name) (.unsupported (.condition (.column table name)))

/-- How a part of a condition fails, and which sub-queries have been run then: those before it, and its
own exactly if it is its runner that fails. -/
inductive Fails (schema : Schema) (answering : Option Answering) (earlier : List Select) :
    Expr → EngineError → List Select → Prop where
  | faulty {part : Expr} {error : EvalError} (fault : Faulty schema answering part error) :
      Fails schema answering earlier part (.eval error) earlier
  | runner {operand : Expr} {query : Select} {position : Nat} {answer : Answering}
      {error : EngineError} (found : schema.columnOf operand = .ok position)
      (some : answering = some answer) (failed : answer earlier query = .error error) :
      Fails schema answering earlier (.inSelect operand query) error (earlier ++ [query])

/-- None of the parts fails when the sub-queries of those before it have been run. -/
def NoneFails (schema : Schema) (answering : Option Answering) (earlier : List Select) :
    List Expr → Prop
  | [] => True
  | part :: rest => (∀ error calls, ¬ Fails schema answering earlier part error calls) ∧
      NoneFails schema answering (earlier ++ part.inQueries) rest

/-- What may come of parts that are gone through in order. -/
inductive Gone (schema : Schema) (answering : Option Answering) (earlier : List Select)
    (parts : List Expr) : Except EngineError Predicate × List Select → Prop where
  | passed (predicate : Predicate) (none : NoneFails schema answering earlier parts) :
      Gone schema answering earlier parts (.ok predicate, earlier ++ parts.flatMap Expr.inQueries)
  | stopped (before : List Expr) (part : Expr) (after : List Expr) {error : EngineError}
      {calls : List Select} (split : parts = before ++ part :: after)
      (none : NoneFails schema answering earlier before)
      (fails : Fails schema answering (earlier ++ before.flatMap Expr.inQueries) part error calls) :
      Gone schema answering earlier parts (.error error, calls)

/-- Each sub-query of a condition is run once and in order: all of them where the condition is compiled,
and else those to the left of the first part that fails, with the one of this part exactly if it is the
runner that fails. Rows that are tested later have none run again. -/
structure RunsEachOnce (schema : Schema) (condition : Expr) (answering : Option Answering) : Prop where
  compiled : ∀ predicate calls, compileAfter schema condition answering [] = (.ok predicate, calls) →
    NoneFails schema answering [] condition.parts ∧ calls = condition.inQueries
  failed : ∀ error calls, compileAfter schema condition answering [] = (.error error, calls) →
    ∃ before part after, condition.parts = before ++ part :: after ∧
      NoneFails schema answering [] before ∧
      Fails schema answering (before.flatMap Expr.inQueries) part error calls
  tested : ∀ rows, (Step.runOn (compileAndTest schema condition answering rows) []).2 =
    (compileAfter schema condition answering []).2

variable {answering : Option Answering} {earlier : List Select}

theorem NoneFails.append {front back : List Expr} (first : NoneFails schema answering earlier front)
    (later : NoneFails schema answering (earlier ++ front.flatMap Expr.inQueries) back) :
    NoneFails schema answering earlier (front ++ back) := by
  induction front generalizing earlier with
  | nil => rwa [List.flatMap_nil, List.append_nil] at later
  | cons part rest ih =>
    rw [List.flatMap_cons, ← List.append_assoc] at later
    exact ⟨first.1, ih first.2 later⟩

namespace Gone

theorem extend {parts : List Expr} {error : EngineError} {calls : List Select}
    (gone : Gone schema answering earlier parts (.error error, calls)) (back : List Expr) :
    Gone schema answering earlier (parts ++ back) (.error error, calls) := by
  cases gone with
  | stopped before part after split none fails =>
    refine .stopped before part (after ++ back) ?_ none fails
    rw [split, List.append_assoc, List.cons_append]

theorem append {front back : List Expr} {predicate : Predicate} {calls : List Select}
    {result : Except EngineError Predicate × List Select}
    (first : Gone schema answering earlier front (.ok predicate, calls))
    (later : Gone schema answering calls back result) (combine : Predicate → Predicate) :
    Gone schema answering earlier (front ++ back) (result.1.map combine, result.2) := by
  cases first with
  | passed predicate none =>
    cases later with
    | passed second rest =>
      rw [List.append_assoc, ← List.flatMap_append]
      exact .passed (combine second) (none.append rest)
    | stopped before part after split rest fails =>
      rw [List.append_assoc, ← List.flatMap_append] at fails
      refine .stopped (front ++ before) part after ?_ (none.append rest) fails
      rw [split, List.append_assoc]

theorem of_fails {part : Expr} {error : EngineError} {calls : List Select}
    (fails : Fails schema answering earlier part error calls) :
    Gone schema answering earlier [part] (.error error, calls) := by
  refine .stopped [] part [] rfl trivial ?_
  rwa [List.flatMap_nil, List.append_nil]

theorem join {front back : List Expr} {first : Except EngineError Predicate × List Select}
    {second : List Select → Except EngineError Predicate × List Select}
    (gone : Gone schema answering earlier front first)
    (later : ∀ calls, Gone schema answering calls back (second calls))
    (combine : Predicate → Predicate → Predicate) :
    Gone schema answering earlier (front ++ back) (joinAfter combine first second) := by
  obtain ⟨result, calls⟩ := first
  cases result with
  | error error => exact gone.extend back
  | ok predicate => exact gone.append (later calls) (combine predicate)

theorem of_passes {part : Expr} {predicate : Predicate} {calls : List Select}
    (passes : ∀ error after, ¬ Fails schema answering earlier part error after)
    (ran : earlier ++ part.inQueries = calls) :
    Gone schema answering earlier [part] (.ok predicate, calls) := by
  have gone : Gone schema answering earlier [part] _ := passed predicate ⟨passes, trivial⟩
  rwa [List.flatMap_singleton, ran] at gone

end Gone

theorem runOn_liftEval {Answer : Type} (result : Except EvalError Answer) (calls : List Select) :
    Step.runOn (liftEval result : Traced Answer) calls = (result.mapError .eval, calls) := by
  cases result <;> rfl

section

variable {m : Type → Type} [Monad m] [MonadExceptOf EngineError m]

theorem compile_and (run? : Option (Select → m (List Row))) (left right : Expr) :
    compile schema (.and left right) (.uniform run? _) = (do
      let first ← compile schema left (.uniform run? left)
      let second ← compile schema right (.uniform run? right)
      return .and first second) := by
  rw [compile]
  cases run? <;> rfl

theorem compile_or (run? : Option (Select → m (List Row))) (left right : Expr) :
    compile schema (.or left right) (.uniform run? _) = (do
      let first ← compile schema left (.uniform run? left)
      let second ← compile schema right (.uniform run? right)
      return .or first second) := by
  rw [compile]
  cases run? <;> rfl

end

theorem compileAfter_join {left right joined : Expr} {combine : Predicate → Predicate → Predicate}
    (compiled : compile schema joined (recorder answering joined) = (do
      let first ← compile schema left (recorder answering left)
      let second ← compile schema right (recorder answering right)
      return combine first second)) :
    compileAfter schema joined answering earlier =
      joinAfter combine (compileAfter schema left answering earlier)
        (compileAfter schema right answering) := by
  rw [compileAfter, compiled, Step.runOn_bind, compileAfter]
  rcases Step.runOn (compile schema left (recorder answering left)) earlier with
    ⟨error | predicate, calls⟩
  · rfl
  · simp only [bind_pure_comp, Step.runOn_map]
    rfl

theorem compileAfter_and (left right : Expr) :
    compileAfter schema (.and left right) answering earlier =
      joinAfter .and (compileAfter schema left answering earlier)
        (compileAfter schema right answering) :=
  compileAfter_join (compile_and _ left right)

theorem compileAfter_or (left right : Expr) :
    compileAfter schema (.or left right) answering earlier =
      joinAfter .or (compileAfter schema left answering earlier)
        (compileAfter schema right answering) :=
  compileAfter_join (compile_or _ left right)

theorem gone_inSelect (operand : Expr) (query : Select) :
    Gone schema answering earlier [.inSelect operand query]
      (compileAfter schema (.inSelect operand query) answering earlier) := by
  rw [compileAfter, compile, Step.runOn_bind, runOn_liftEval]
  cases found : schema.columnOf operand with
  | error error => exact .of_fails (.faulty (.inSelect found))
  | ok position =>
    cases answering with
    | none => exact .of_fails (.faulty (.noSubqueries found rfl))
    | some answer =>
      simp only [recorder, SubqueryRunner.uniform, Option.map_some, Except.mapError, bind_assoc, Step.runOn_bind,
        Step.runOn_get, Step.runOn_set, Step.runOn_ofExcept]
      cases answered : answer earlier query with
      | error error => exact .of_fails (.runner found rfl answered)
      | ok rows =>
        refine .of_passes (fun error calls fails => ?_) ?_
        · cases fails with
          | faulty fault =>
            cases fault with
            | inSelect failed => cases found.symm.trans failed
            | noSubqueries found none => cases none
          | runner found some failed =>
            cases some
            cases answered.symm.trans failed
        · rw [Expr.inQueries, Expr.inQueries_of_columnOf found, List.nil_append]

theorem gone_compile (condition : Expr) (earlier : List Select) :
    Gone schema answering earlier condition.parts
      (compileAfter schema condition answering earlier) := by
  induction condition using Expr.parts.induct generalizing earlier with
  | case1 left right leftGone rightGone =>
    rw [compileAfter_and]
    exact (leftGone earlier).join rightGone .and
  | case2 left right leftGone rightGone =>
    rw [compileAfter_or]
    exact (leftGone earlier).join rightGone .or
  | case3 part noAnd noOr =>
    cases part with
    | and left right => exact absurd rfl (noAnd left right)
    | or left right => exact absurd rfl (noOr left right)
    | inSelect operand query => exact gone_inSelect operand query
    | compare operator left right =>
      rw [compileAfter, compile, runOn_liftEval]
      cases compiled : schema.compileComparison operator left right with
      | error error => exact .of_fails (.faulty (.compare compiled))
      | ok predicate =>
        refine .of_passes (fun error calls fails => ?_) ?_
        · cases fails with
          | faulty fault =>
            cases fault with
            | compare failed => cases compiled.symm.trans failed
        · rw [Expr.inQueries, Expr.inQueries_of_compileComparison compiled, List.append_nil]
    | isNull operand negated =>
      rw [compileAfter, compile, bind_pure_comp, Step.runOn_map, runOn_liftEval]
      cases found : schema.columnOf operand with
      | error error => exact .of_fails (.faulty (.isNull found))
      | ok position =>
        refine .of_passes (fun error calls fails => ?_) ?_
        · cases fails with
          | faulty fault =>
            cases fault with
            | isNull failed => cases found.symm.trans failed
        · rw [Expr.inQueries, Expr.inQueries_of_columnOf found, List.append_nil]
    | not operand => exact .of_fails (.faulty .negation)
    | literal value => exact .of_fails (.faulty .literal)
    | column table name => exact .of_fails (.faulty .column)

/-- Testing rows runs no sub-query. -/
theorem snd_runOn_compileAndTest (condition : Expr) (rows : List Row) :
    (Step.runOn (compileAndTest schema condition answering rows) earlier).2 =
      (compileAfter schema condition answering earlier).2 := by
  rw [compileAndTest, compileAfter, Step.runOn_bind]
  rcases Step.runOn (compile schema condition (recorder answering condition)) earlier with
    ⟨error | predicate, calls⟩
  · rfl
  · have still : Step.Respects (fun before after : List Select => before = after)
        (rows.mapM fun row => (liftEval (predicate.test row) : Traced Bool)) :=
      .mapM (fun row calls => by rw [runOn_liftEval]) rows
    exact (still calls).symm

/-- Where answers do not depend on what was run before, a condition is compiled to the same with or
without a list of the sub-queries. -/
theorem fst_compileAfter (run? : Option (Select → Except EngineError (List Row))) (condition : Expr)
    (earlier : List Select) :
    (compileAfter schema condition (run?.map fun run _ => run) earlier).1 =
      compile schema condition (.uniform run? condition) := by
  induction condition using Expr.parts.induct generalizing earlier with
  | case1 left right leftSame rightSame =>
    rw [compileAfter_and, compile_and, ← leftSame earlier]
    rcases compileAfter schema left (run?.map fun run _ => run) earlier with ⟨error | first, calls⟩
    · rfl
    · rw [← rightSame calls]
      rfl
  | case2 left right leftSame rightSame =>
    rw [compileAfter_or, compile_or, ← leftSame earlier]
    rcases compileAfter schema left (run?.map fun run _ => run) earlier with ⟨error | first, calls⟩
    · rfl
    · rw [← rightSame calls]
      rfl
  | case3 part noAnd noOr =>
    cases part with
    | and left right => exact absurd rfl (noAnd left right)
    | or left right => exact absurd rfl (noOr left right)
    | inSelect operand query =>
      rw [compileAfter, compile, compile, Step.runOn_bind, runOn_liftEval, liftEval_eq]
      cases schema.columnOf operand with
      | error error => rfl
      | ok position =>
        cases run? with
        | none => rfl
        | some run =>
          simp only [recorder, SubqueryRunner.uniform, Option.map_some, Except.mapError, bind_assoc,
            Step.runOn_bind, Step.runOn_get, Step.runOn_set, Step.runOn_ofExcept]
          cases run query <;> rfl
    | compare operator left right => rw [compileAfter, compile, compile, runOn_liftEval, liftEval_eq]
    | isNull operand negated =>
      rw [compileAfter, compile, compile, bind_pure_comp, Step.runOn_map, runOn_liftEval, liftEval_eq]
      rfl
    | not operand => rfl
    | literal value => rfl
    | column table name => rfl

theorem compileTraced_eq (schema : Schema) (condition : Expr)
    (run? : Option (Select → Except EngineError (List Row))) :
    compileTraced schema condition run? =
      compileAfter schema condition (run?.map fun run _ => run) [] := by
  cases run? <;> rfl

/-- The conditions of queries and joins are compiled with sub-queries that are run once each. -/
theorem compileWhere_eq (engine : Engine) (schema : Schema) (condition : Expr) :
    engine.compileWhere schema (some condition) =
      (compileAfter schema condition
        (some fun _ query => do return (← engine.run query).rows) []).1 := by
  rw [Engine.compileWhere]
  exact (fst_compileAfter (some fun query => do return (← engine.run query).rows) condition []).symm

/-- Compiling a condition runs its sub-queries each once. -/
theorem runs_each_once (schema : Schema) (condition : Expr) (answering : Option Answering) :
    RunsEachOnce schema condition answering := by
  have gone : Gone schema answering [] condition.parts _ := gone_compile condition []
  constructor
  case compiled =>
    intro predicate calls done
    rw [done] at gone
    cases gone with
    | passed predicate none => exact ⟨none, condition.flatMap_inQueries_parts⟩
  case failed =>
    intro error calls done
    rw [done] at gone
    cases gone with
    | stopped before part after split none fails =>
      exact ⟨before, part, after, split, none, fails⟩
  case tested => exact snd_runOn_compileAndTest condition

end RowStore
