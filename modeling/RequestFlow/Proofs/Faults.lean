import RequestFlow.Proofs.Position

/-!
# Errors that are raised

A run raises an error where a condition cannot be evaluated and where an item of a
loop has no text, and records a result that says so.  Nothing else is raised:
neither a failed response nor a branch that fails nor a skip.  Main statement: the
errors of a run are those of its results without a response, in order, and there
are as many as conditions that failed and items without a text.
-/

namespace RequestFlow

open Condition

/-! ## Faults -/

/-- A condition cannot be evaluated, or the source of a loop does not yield a
list. -/
def Condition.Query.fails (evaluator : Evaluator) (query : Query) : Bool :=
  match evaluator query with
  | .error _ => true
  | .ok value => query.role = .loop && !value.items.isOk

/-- A condition fails exactly if there is a fault. -/
theorem Condition.Query.fails_eq_isSome_fault? (evaluator : Evaluator)
    (query : Query) : query.fails evaluator = (query.fault? evaluator).isSome := by
  rw [fails, fault?]
  cases evaluator query with
  | error error => rfl
  | ok value =>
      by_cases loops : query.role = .loop
      · simp only [loops, decide_true, Bool.true_and, if_true]
        cases value.items <;> rfl
      · simp only [loops, decide_false, Bool.false_and, if_false,
          Option.isSome_none]

namespace StepResult

/-- The result tells an error although there is no response. -/
def isFaulty (result : StepResult) : Bool :=
  result.error.isSome && result.response.isNone

/-- The line of the error that a result tells. -/
def errorLine (result : StepResult) : String :=
  let error := result.error.getD ""
  s!"{result.displayLabel}: {error}"

/-- The result is that of an item that has no text. -/
def isUnbound (result : StepResult) : Bool :=
  result.isFaulty &&
    result.message.any fun message =>
      "for-each item ".toList.isPrefixOf message.toList

end StepResult

namespace Log

/-- The errors raised are those of the results without a response, and there are
as many as conditions that failed and items without a text. -/
structure Surfaces (evaluator : Evaluator) (log : Log) : Prop where
  lines :
    log.errors = (log.results.filter StepResult.isFaulty).map StepResult.errorLine
  count :
    log.errors.length =
      log.queries.countP (Query.fails evaluator) +
        log.results.countP StepResult.isUnbound

variable {evaluator : Evaluator} {first second log : Log} {index : Nat}

theorem surfaces_nil : Surfaces evaluator [] :=
  ⟨rfl, rfl⟩

/-- Errors and results of logs are counted one log behind the other. -/
theorem Surfaces.append (left : first.Surfaces evaluator)
    (right : second.Surfaces evaluator) :
    (first ++ second).Surfaces evaluator := by
  constructor
  · rw [errors_append, results_append, List.filter_append, List.map_append,
      left.lines, right.lines]
  · rw [errors_append, queries_append, results_append, List.length_append,
      List.countP_append, List.countP_append, left.count, right.count]
    omega

theorem AsksFor.errors (asks : log.AsksFor index) : log.errors = [] := by
  apply List.filterMap_eq_nil_iff.mpr
  intro act member
  rcases asks act member with ⟨query, rfl, own⟩
  rfl

/-- A log that asks for a request and whose conditions all have values raises no
error. -/
theorem AsksFor.surfaces (asks : log.AsksFor index)
    (sound : log.queries.countP (Query.fails evaluator) = 0) :
    log.Surfaces evaluator := by
  constructor
  · rw [asks.errors, asks.results]
    rfl
  · rw [asks.errors, asks.results, sound]
    rfl

end Log

/-! ## Faults of a decision -/

/-- A result that a step leaves without a request has no response, and is not that
of an item. -/
def NextAction.Plain : NextAction → Prop
  | dispatch _ => True
  | record result _ => result.response = none ∧ result.isUnbound = false

/-- The number of faults that a step leaves without a request. -/
def NextAction.faults : NextAction → Nat
  | dispatch _ => 0
  | record result _ => if result.error.isSome then 1 else 0

/-- A decision leaves a fault exactly if a condition has failed. -/
structure CountsFaults (evaluator : Evaluator) (decision : Traced NextAction) :
    Prop where
  count :
    decision.log.queries.countP (Query.fails evaluator) = decision.value.faults
  plain : decision.value.Plain

/-! ### Wordings -/

/-- A failed condition is told otherwise than an item without a text. -/
theorem not_prefix_conditionFailure (role : Role) (error : ValueError) :
    "for-each item ".toList.isPrefixOf (conditionFailure role error).toList =
      false := by
  have sign : (conditionFailure role error).toList.head? = some '@' := by
    cases role <;> simp [conditionFailure, Role.text, toString]
  cases letters : (conditionFailure role error).toList with
  | nil => rfl
  | cons first others =>
      rw [letters] at sign
      rcases Option.some.inj sign with rfl
      rfl

/-- The message by which the result of an item without a text is known. -/
theorem prefix_unboundItem (iteration : Iteration) (name : String)
    (error : ValueError) :
    "for-each item ".toList.isPrefixOf
        (Run.unboundItem iteration name error).toList = true := by
  have whole (first second third fourth fifth sixth : String) :
      first.toList <+:
        (first ++ second ++ third ++ fourth ++ fifth ++ sixth).toList := by
    simp only [String.toList_append, List.append_assoc]
    exact List.prefix_append _ _
  rw [List.isPrefixOf_iff_prefix]
  exact whole _ _ _ _ _ _

/-! ### Conditions of a step -/

section Decisions

variable {context : StepContext} {core : StepCore} {suits : Target → Prop}

/-- The message of a failed condition is not taken for that of an item. -/
theorem plain_conditionFailure (request branch : Option String) (policy : Policy)
    (status : StepStatus) (role : Role) (error : ValueError) :
    (core.record request branch policy status (conditionFailure role error)
      (some error.message)).Plain := by
  refine ⟨rfl, ?_⟩
  rw [StepResult.isUnbound, Option.any_some, not_prefix_conditionFailure,
    Bool.and_false]

/-- Conditions that were all answered count no failure. -/
theorem Log.SoundFor.countP_fails {log : Log} (sound : log.SoundFor context core) :
    log.queries.countP (Query.fails context.evaluator) = 0 := by
  rw [List.countP_eq_zero]
  intro query member
  rcases sound.mem_queries member with
    ⟨role, condition, value, rfl, other, answered⟩
  rw [Query.fails_eq_isSome_fault?, Query.fault?_of_ok answered other]
  exact Bool.false_ne_true

/-- After sound conditions there is a fault exactly if the next one has one. -/
theorem Log.SoundFor.countP_asked {log : Log} (sound : log.SoundFor context core)
    (role : Role) (condition : SourceCondition) :
    (Log.queries (log ++ [context.asked core role condition])).countP
        (Query.fails context.evaluator) =
      if ((context.queryFor core role condition).fault?
          context.evaluator).isSome then
        1
      else 0 := by
  rw [Log.queries_append, List.countP_append, sound.countP_fails, Nat.zero_add,
    ← Query.fails_eq_isSome_fault?]
  exact List.countP_singleton

/-- Whichever way a decision goes, it leaves a fault exactly if a condition has
failed. -/
theorem Way.countsFaults {decision : Traced NextAction}
    (way : Way context core suits decision) :
    CountsFaults context.evaluator decision := by
  cases way with
  | settles sound => exact ⟨sound.countP_fails, rfl, rfl⟩
  | fails sound fault =>
      refine ⟨?_, plain_conditionFailure _ _ _ _ _ _⟩
      rw [sound.countP_asked, fault]
      rfl
  | idles sound yields =>
      refine ⟨?_, rfl, rfl⟩
      rw [sound.countP_asked, Query.fault?_of_loop rfl, yields]
      rfl
  | sends sound suited single affirmed => exact ⟨sound.countP_fails, trivial⟩
  | loops sound suited looping yields nonempty =>
      refine ⟨?_, trivial⟩
      rw [sound.countP_asked, Query.fault?_of_loop rfl, yields]
      rfl

end Decisions

/-- What a resolved step leaves is a fault exactly if a condition of it has
failed. -/
theorem ResolvedStep.Resolves.countsFaults {workflow : WorkflowDefinition}
    {index : Nat} {definition : StepDefinition} {step : ResolvedStep}
    (resolves : step.Resolves workflow index definition) (context : StepContext) :
    CountsFaults context.evaluator (step.next context) := by
  have way : Way context step.core (fun _ => True) (step.next context) :=
    resolves.way context (fun _ _ _ _ _ _ _ => trivial) fun _ _ _ _ _ => trivial
  exact way.countsFaults

/-! ## Faults of a run -/

namespace Run

variable {evaluator : Evaluator} {run next : Run} {stage later : Stage}
  {acts log : Log}

/-- A result without a response surfaces if it tells an error exactly where a
condition has failed or an item has no text. -/
theorem surfaces_record {index : Nat} {asked : Log} {result : StepResult}
    (asks : asked.AsksFor index) (unanswered : result.response = none)
    (count :
      (if result.error.isSome then 1 else 0) =
        asked.queries.countP (Query.fails evaluator) +
          if result.isUnbound then 1 else 0) :
    Log.Surfaces evaluator
      (asked ++ (raiseErrorOf result).log ++ [.recorded result]) := by
  have queries :
      Log.queries (asked ++ (raiseErrorOf result).log ++ [.recorded result]) =
        asked.queries := by
    rw [Log.queries_append, queries_asked_raised, Log.queries_recorded,
      List.append_nil]
  have results :
      Log.results (asked ++ (raiseErrorOf result).log ++ [.recorded result]) =
        [result] := by
    simp [asks.results]
  have errors :
      Log.errors (asked ++ (raiseErrorOf result).log ++ [.recorded result]) =
        (raiseErrorOf result).log.errors := by
    rw [Log.errors_append, Log.errors_append, asks.errors]
    exact List.append_nil _
  have faulty : result.isFaulty = result.error.isSome := by
    rw [StepResult.isFaulty, unanswered]
    exact Bool.and_true _
  constructor
  · rw [errors, results, List.filter_singleton, faulty, raiseErrorOf]
    cases told : result.error with
    | none => rfl
    | some error =>
        have line : result.errorLine = s!"{result.displayLabel}: {error}" := by
          rw [StepResult.errorLine, told]
          rfl
        show [_] = [result.errorLine]
        rw [line]
  · rw [errors, queries, results, List.countP_singleton, ← count, raiseErrorOf]
    cases result.error <;> rfl

/-- Passing over an item leaves one error at most, that of its condition or of its
text. -/
theorem PassesOver.surfaces {active : ActiveStep} {loop : Loop} {item : Value}
    {asked : Log} {result : StepResult}
    (passed : PassesOver evaluator run active loop item asked result) :
    Log.Surfaces evaluator
      (asked ++ (raiseErrorOf result).log ++ [.recorded result]) := by
  apply surfaces_record passed.explores.asks
  · cases passed <;> rfl
  · cases passed with
    | unbound unbound =>
        rw [StepResult.isUnbound, ActiveStep.failure, ActiveStep.result]
        simp only [Option.any_some, prefix_unboundItem]
        rfl
    | refused bound guarded answered refused =>
        show 0 = List.countP (Query.fails evaluator) [_] + 0
        rw [List.countP_singleton, Query.fails, answered]
        rfl
    | faulty bound guarded failed =>
        rw [StepResult.isUnbound, ActiveStep.failure, ActiveStep.result]
        simp only [Option.any_some, not_prefix_conditionFailure, Bool.and_false]
        show 1 = List.countP (Query.fails evaluator) [_] + 0
        rw [List.countP_singleton, Query.fails, failed]
        rfl

/-- The result of an answer raises no error: it has a response, or it tells no
error. -/
theorem surfaces_answered {active : ActiveStep} {inFlight : InFlight}
    {outcome : Outcome} {result : StepResult}
    (answer : answerOf? active inFlight outcome = some result) :
    Log.Surfaces evaluator [.recorded result] := by
  have sound : result.isFaulty = false := by
    cases outcome with
    | completed snapshot =>
        rcases Option.some.inj answer with rfl
        exact Bool.and_false _
    | skipped reason =>
        rcases Option.some.inj answer with rfl
        rfl
    | canceled => cases answer
  constructor
  · rw [Log.results_recorded, List.filter_singleton, sound]
    rfl
  · rw [Log.results_recorded, List.countP_singleton, StepResult.isUnbound, sound]
    rfl

/-- A result and the acts before it surface, however the run came to the
result. -/
theorem Yields.surfaces {workflow : WorkflowDefinition} {result : StepResult}
    {policy : Policy} (resolves : run.workflow.Resolves workflow)
    (yields : Yields evaluator run stage acts result policy next) :
    Log.Surfaces evaluator (acts ++ [.recorded result]) := by
  cases yields with
  | @settled step asked result policy free current decided =>
      rcases resolves.declared current with ⟨definition, declared, stepResolves⟩
      have decides := stepResolves.decides (run.contextFor evaluator step)
      have counts := stepResolves.countsFaults (run.contextFor evaluator step)
      rw [decided] at decides counts
      apply surfaces_record decides.asks counts.plain.1
      rw [counts.plain.2]
      exact counts.count.symm
  | passedOver present looping items passed => exact passed.surfaces
  | answered flying present answer => exact surfaces_answered answer

theorem Ready.surfaces {active sender : ActiveStep} {scope : DispatchScope}
    {iteration : Option Iteration}
    (ready : Ready evaluator run active acts sender scope iteration) :
    acts.Surfaces evaluator := by
  apply ready.explores.asks.surfaces
  cases ready with
  | once fresh => rfl
  | item looping items bound unguarded => rfl
  | guardedItem looping items bound guarded answered accepted =>
      show List.countP (Query.fails evaluator) [_] = 0
      rw [List.countP_singleton, Query.fails, answered]
      rfl

/-- The step lemma: one case for each move of a run. -/
theorem Move.surfaces {workflow : WorkflowDefinition}
    (resolves : run.workflow.Resolves workflow)
    (moved : Move evaluator run stage acts next later) :
    acts.Surfaces evaluator := by
  cases moved with
  | goesOn yields lasting => exact yields.surfaces resolves
  | stops yields halting => exact yields.surfaces resolves
  | @enters step asked active free current decided =>
      rcases resolves.declared current with ⟨definition, declared, stepResolves⟩
      have decides := stepResolves.decides (run.contextFor evaluator step)
      have counts := stepResolves.countsFaults (run.contextFor evaluator step)
      rw [decided] at decides counts
      exact decides.asks.surfaces counts.count
  | leaves present finished => exact Log.surfaces_nil
  | sends present ready =>
      exact ready.surfaces.append ⟨rfl, rfl⟩
  | completes free done => exact Log.surfaces_nil
  | cancels => exact Log.surfaces_nil

/-- Wherever moves lead to, the errors raised are those of the results without a
response. -/
theorem Reaches.surfaces {request : RunRequest} {first : Run}
    (begins : Begins request first)
    (reached : Reaches evaluator first .working log run stage) :
    log.Surfaces evaluator := by
  induction reached with
  | refl => exact Log.surfaces_nil
  | move reached moved hypothesis =>
      exact hypothesis.append (moved.surfaces (reached.resolves begins))

end Run

end RequestFlow
