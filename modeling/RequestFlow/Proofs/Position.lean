import RequestFlow.Proofs.Decision
import RequestFlow.Proofs.Session

/-!
# Where a run is

A run never leaves the steps of its workflow, and a step that is active is the
current one.  Main statement: this holds of every run that moves lead to, whatever
its stage.
-/

namespace RequestFlow

open Condition

namespace Run

/-- The current step is within the workflow, and the active step is the current
one. -/
structure Placed (run : Run) : Prop where
  within : run.stepIndex ≤ run.workflow.totalSteps
  current :
    ∀ active, run.active = some active →
      ∃ step, run.workflow.steps[run.stepIndex]? = some step ∧
        active.stepIndex = run.stepIndex ∧ active.bindings = step.core.bindings

/-- What the current step of a run decides. -/
theorem decides_current {workflow : WorkflowDefinition} {run : Run}
    (resolves : run.workflow.Resolves workflow) {step : ResolvedStep}
    (current : run.workflow.steps[run.stepIndex]? = some step)
    (evaluator : Evaluator) :
    step.core.index = run.stepIndex ∧
      Decides evaluator step.core (step.next (run.contextFor evaluator step)) := by
  rcases resolves.declared current with ⟨definition, declared, stepResolves⟩
  exact ⟨stepResolves.index_eq,
    stepResolves.decides (run.contextFor evaluator step)⟩

theorem stepIndex_lt_of_current {run : Run} {step : ResolvedStep}
    (current : run.workflow.steps[run.stepIndex]? = some step) :
    run.stepIndex < run.workflow.totalSteps :=
  (List.getElem?_eq_some_iff.mp current).1

theorem Placed.stepIndex_lt {run : Run} (placed : run.Placed) {active : ActiveStep}
    (present : run.active = some active) :
    run.stepIndex < run.workflow.totalSteps := by
  rcases placed.current active present with ⟨step, current, index, bindings⟩
  exact stepIndex_lt_of_current current

/-! ## Acts of an active step -/

/-- An item is passed over after at most its own condition was asked for. -/
theorem PassesOver.explores {evaluator : Evaluator} {run : Run}
    {active : ActiveStep} {loop : Loop} {item : Value} {asked : Log}
    {result : StepResult}
    (passed : PassesOver evaluator run active loop item asked result) :
    asked.Explores active.stepIndex := by
  cases passed with
  | unbound unbound => exact Log.explores_nil
  | refused bound guarded answered refused => exact Log.explores_query _ rfl nofun
  | faulty bound guarded failed => exact Log.explores_query _ rfl nofun

/-- The result of an item that is passed over has the place of the item. -/
theorem PassesOver.place {evaluator : Evaluator} {run : Run} {active : ActiveStep}
    {loop : Loop} {item : Value} {asked : Log} {result : StepResult}
    (passed : PassesOver evaluator run active loop item asked result) :
    result.stepIndex = active.stepIndex ∧
      result.iteration = some loop.iteration := by
  cases passed <;> exact ⟨rfl, rfl⟩

/-- Acts that lead to a result of a step: conditions of the step, and an error;
nothing is recorded or sent. -/
structure LeadsTo (index : Nat) (acts : Log) : Prop where
  own : ∀ query ∈ acts.queries, query.step = index + 1
  unrecorded : acts.results = []
  unsent : acts.dispatches = []

theorem queries_asked_raised (asked : Log) (result : StepResult) :
    (asked ++ (raiseErrorOf result).log).queries = asked.queries := by
  rw [Log.queries_append, queries_raiseErrorOf, List.append_nil]

theorem leadsTo_raiseErrorOf {index : Nat} {asked : Log}
    (asks : asked.AsksFor index) (result : StepResult) :
    LeadsTo index (asked ++ (raiseErrorOf result).log) := by
  refine ⟨?_, ?_, ?_⟩
  · rw [queries_asked_raised]
    exact asks.own
  · rw [Log.results_append, results_raiseErrorOf, asks.results, List.append_nil]
  · rw [Log.dispatches_append, dispatches_raiseErrorOf, asks.dispatches,
      List.append_nil]

/-- The result is all that is recorded then. -/
theorem LeadsTo.record {index : Nat} {acts : Log} (leads : LeadsTo index acts)
    (result : StepResult) :
    (∀ query ∈ Log.queries (acts ++ [.recorded result]), query.step = index + 1) ∧
      Log.results (acts ++ [.recorded result]) = [result] ∧
        Log.dispatches (acts ++ [.recorded result]) = [] := by
  rw [Log.queries_append, Log.queries_recorded, List.append_nil,
    Log.results_append, leads.unrecorded, Log.results_recorded, List.nil_append,
    Log.dispatches_append, leads.unsent, Log.dispatches_recorded, List.append_nil]
  exact ⟨leads.own, rfl, rfl⟩

/-- A request is sent after at most the condition of its item was asked for. -/
theorem Ready.explores {evaluator : Evaluator} {run : Run}
    {active sender : ActiveStep} {asked : Log} {scope : DispatchScope}
    {iteration : Option Iteration}
    (ready : Ready evaluator run active asked sender scope iteration) :
    asked.Explores active.stepIndex := by
  cases ready with
  | once fresh => exact Log.explores_nil
  | item looping items bound unguarded => exact Log.explores_nil
  | guardedItem looping items bound guarded answered accepted =>
      exact Log.explores_query _ rfl nofun

/-- The result of an answer has the place of the request. -/
theorem place_of_answerOf? {active : ActiveStep} {inFlight : InFlight}
    {outcome : Outcome} {result : StepResult}
    (answer : answerOf? active inFlight outcome = some result) :
    result.stepIndex = active.stepIndex ∧
      result.iteration = inFlight.iteration := by
  cases outcome with
  | completed snapshot =>
      rcases Option.some.inj answer with rfl
      exact ⟨rfl, rfl⟩
  | skipped reason =>
      rcases Option.some.inj answer with rfl
      exact ⟨rfl, rfl⟩
  | canceled => cases answer

/-! ## The current step -/

/-- A run without an active step that is within its workflow is well placed. -/
theorem Placed.of_free {run : Run} (free : run.active = none)
    (within : run.stepIndex ≤ run.workflow.totalSteps) : run.Placed := by
  refine ⟨within, ?_⟩
  intro active present
  rw [free] at present
  cases present

/-- A run whose active step has only come further is well placed. -/
theorem Placed.of_active {run next : Run} {active later : ActiveStep}
    (placed : run.Placed) (present : run.active = some active)
    (following : next.active = some later)
    (workflow : next.workflow = run.workflow)
    (stepIndex : next.stepIndex = run.stepIndex)
    (index : later.stepIndex = active.stepIndex)
    (bindings : later.bindings = active.bindings) : next.Placed := by
  constructor
  · rw [workflow, stepIndex]
    exact placed.within
  · intro other equal
    rcases Option.some.inj (following.symm.trans equal) with rfl
    rw [workflow, stepIndex, index, bindings]
    exact placed.current active present

theorem Yields.placed {evaluator : Evaluator} {run next : Run} {stage : Stage}
    {acts : Log} {result : StepResult} {policy : Policy}
    (yields : Yields evaluator run stage acts result policy next)
    (placed : run.Placed) : next.Placed := by
  cases yields with
  | settled free current decided =>
      exact .of_free free (stepIndex_lt_of_current current)
  | passedOver present looping items passed =>
      exact placed.of_active present rfl rfl rfl rfl rfl
  | answered flying present answer =>
      exact placed.of_active present rfl rfl rfl rfl rfl

theorem Move.placed {evaluator : Evaluator} {workflow : WorkflowDefinition}
    {run next : Run} {stage later : Stage} {acts : Log}
    (resolves : run.workflow.Resolves workflow)
    (moved : Move evaluator run stage acts next later) (placed : run.Placed) :
    next.Placed := by
  cases moved with
  | goesOn yields lasting => exact yields.placed placed
  | stops yields halting => exact .of_free rfl placed.within
  | enters free current decided =>
      rcases decides_current resolves current evaluator with ⟨number, decides⟩
      rw [decided] at decides
      rcases decides.begins with ⟨index, bindings, fresh⟩
      refine ⟨placed.within, ?_⟩
      rintro _ ⟨⟩
      exact ⟨_, current, index.trans number, bindings⟩
  | leaves present finished => exact .of_free rfl (placed.stepIndex_lt present)
  | sends present ready =>
      cases ready with
      | once fresh => exact placed.of_active present rfl rfl rfl rfl rfl
      | item looping items bound unguarded =>
          exact placed.of_active present rfl rfl rfl rfl rfl
      | guardedItem looping items bound guarded answered accepted =>
          exact placed.of_active present rfl rfl rfl rfl rfl
  | completes free done => exact placed
  | cancels => exact placed

theorem Begins.resolves {request : RunRequest} {run : Run}
    (begins : Begins request run) : run.workflow.Resolves request.workflow :=
  resolves_of_resolve begins.resolved

/-- Wherever moves lead to, the workflow is the resolved one of the request. -/
theorem Reaches.resolves {evaluator : Evaluator} {request : RunRequest}
    {first run : Run} {start stage : Stage} {log : Log}
    (begins : Begins request first)
    (reached : Reaches evaluator first start log run stage) :
    run.workflow.Resolves request.workflow := by
  rw [reached.workflow_eq]
  exact begins.resolves

/-- What leads to a result belongs to the current step. -/
theorem Yields.leads {evaluator : Evaluator} {workflow : WorkflowDefinition}
    {run next : Run} {stage : Stage} {acts : Log} {result : StepResult}
    {policy : Policy} (resolves : run.workflow.Resolves workflow)
    (placed : run.Placed)
    (yields : Yields evaluator run stage acts result policy next) :
    LeadsTo run.stepIndex acts := by
  cases yields with
  | settled free current decided =>
      rcases decides_current resolves current evaluator with ⟨number, decides⟩
      rw [decided] at decides
      have asks := decides.asks
      rw [number] at asks
      exact leadsTo_raiseErrorOf asks result
  | passedOver present looping items passed =>
      rcases placed.current _ present with ⟨step, current, index, bindings⟩
      have explores := passed.explores
      rw [index] at explores
      exact leadsTo_raiseErrorOf explores.asks result
  | answered flying present answer => exact ⟨Log.explores_nil.asks.own, rfl, rfl⟩

/-- Wherever moves lead to, the active step is the current one. -/
theorem Reaches.placed {evaluator : Evaluator} {request : RunRequest}
    {first run : Run} {start stage : Stage} {log : Log}
    (begins : Begins request first)
    (reached : Reaches evaluator first start log run stage) : run.Placed := by
  induction reached with
  | refl =>
      refine .of_free begins.active ?_
      rw [begins.stepIndex]
      exact Nat.zero_le _
  | move reached moved hypothesis =>
      exact moved.placed (reached.resolves begins) hypothesis

end Run

end RequestFlow
