import RequestFlow.Run.Work

/-!
# The course of a run

A run works its way to its next dispatch, waits for the answer and works on, until
it is over.  This module says once what it can do on this way, move by move, and
with which acts: a step leaves a result or becomes active, an item of a loop is
passed over, a request is sent, an answer is taken in, a step is left, the run
ends.  What holds of a run is then shown for each move, and holds along its whole
course by induction.

The moves are no second definition of a run: what the engine computes is reached
by moves, with exactly the acts that the engine logs.
-/

namespace RequestFlow

open Condition

/-- Where a run stands. -/
inductive Stage where
  /-- It works its way to the next dispatch. -/
  | working
  /-- It waits for the answer to a dispatch. -/
  | waiting (dispatch : Dispatch)
  | over (ending : RunEnd)

namespace Run

/-- The context in which a run decides what a step does. -/
def contextFor (run : Run) (evaluator : Evaluator) (step : ResolvedStep) :
    StepContext :=
  ⟨run.workflow, evaluator, run.scopeFor step.core.bindings none, run.origin⟩

/-- The scope of an active step at an item of its loop. -/
def itemScope (run : Run) (active : ActiveStep) (loop : Loop) (item : Value)
    (text : String) : DispatchScope :=
  run.scopeFor active.bindings (some ⟨loop.name, loop.keys, text, item⟩)

/-- The condition of an active step at an item of its loop. -/
def itemQuery (run : Run) (active : ActiveStep) (loop : Loop) (item : Value)
    (text : String) (guard : SourceCondition) : Query :=
  queryOf run.workflow.name active.stepIndex .guard guard
    (run.itemScope active loop item text)

/-- The result of an active step for an answer that is one. -/
def answerOf? (active : ActiveStep) (inFlight : InFlight) :
    Outcome → Option StepResult
  | .completed snapshot => some (resultOf active inFlight snapshot)
  | .skipped reason =>
      some (active.result .skipped inFlight.iteration (some reason))
  | .canceled => none

/-- The run that a result ends. -/
def stoppedBy (run : Run) (result : StepResult) : Run :=
  { run.withResult result with active := none, inFlight := none }

/-- An item of a loop is passed over: these conditions were evaluated, and this is
its result. -/
inductive PassesOver (evaluator : Evaluator) (run : Run) (active : ActiveStep)
    (loop : Loop) (item : Value) : Log → StepResult → Prop where
  | unbound {error : ValueError} (unbound : item.text = .error error) :
      PassesOver evaluator run active loop item []
        (active.failure loop.iteration (unboundItem loop.iteration loop.name error)
          error.message)
  /-- The condition is false for the item. -/
  | refused {text : String} {guard : SourceCondition} {value : Value}
      (bound : item.text = .ok text) (guarded : active.guard = some guard)
      (answered :
        evaluator (run.itemQuery active loop item text guard) = .ok value)
      (refused : value.isTruthy = false) :
      PassesOver evaluator run active loop item
        [.noted (.asked (run.itemQuery active loop item text guard))]
        (active.result .skipped (some loop.iteration) (some guardIsFalse))
  /-- The condition cannot be evaluated for the item. -/
  | faulty {text : String} {guard : SourceCondition} {error : ValueError}
      (bound : item.text = .ok text) (guarded : active.guard = some guard)
      (failed :
        evaluator (run.itemQuery active loop item text guard) = .error error) :
      PassesOver evaluator run active loop item
        [.noted (.asked (run.itemQuery active loop item text guard))]
        (active.failure loop.iteration (conditionFailure .guard error)
          error.message)

/-- The run comes to a result under a policy; the last run is the one that goes on
after it. -/
inductive Yields (evaluator : Evaluator) (run : Run) :
    Stage → Log → StepResult → Policy → Run → Prop where
  /-- A step leaves a result and sends nothing. -/
  | settled {step : ResolvedStep} {asked : Log} {result : StepResult}
      {policy : Policy} (free : run.active = none)
      (current : run.workflow.steps[run.stepIndex]? = some step)
      (decided :
        step.next (run.contextFor evaluator step) =
          ⟨asked, .record result policy⟩) :
      Yields evaluator run .working (asked ++ (raiseErrorOf result).log) result
        policy (run.withResult result).nextStep
  /-- An item of a loop is passed over. -/
  | passedOver {active : ActiveStep} {loop : Loop} {item : Value}
      {ahead : List Value} {asked : Log} {result : StepResult}
      (present : run.active = some active)
      (looping : active.progress = .looping loop)
      (items : loop.ahead = item :: ahead)
      (passed : PassesOver evaluator run active loop item asked result) :
      Yields evaluator run .working (asked ++ (raiseErrorOf result).log) result
        active.policy { run.withResult result with active := some active.advance }
  /-- The awaited answer is there. -/
  | answered {dispatch : Dispatch} {active : ActiveStep} {inFlight : InFlight}
      {outcome : Outcome} {result : StepResult}
      (flying : run.inFlight = some inFlight) (present : run.active = some active)
      (answer : answerOf? active inFlight outcome = some result) :
      Yields evaluator run (.waiting dispatch) [] result active.policy
        { run.withResult result with
          active := some active.advance
          inFlight := none }

/-- An active step is ready to send its request, in this scope and at this place
of its loop. -/
inductive Ready (evaluator : Evaluator) (run : Run) (active : ActiveStep) :
    Log → ActiveStep → DispatchScope → Option Iteration → Prop where
  /-- The step sends its request once. -/
  | once (fresh : active.progress = .single false) :
      Ready evaluator run active [] { active with progress := .single true }
        (run.scopeFor active.bindings none) none
  /-- The step sends its request for the current item. -/
  | item {loop : Loop} {item : Value} {ahead : List Value} {text : String}
      (looping : active.progress = .looping loop)
      (items : loop.ahead = item :: ahead) (bound : item.text = .ok text)
      (unguarded : active.guard = none) :
      Ready evaluator run active [] active (run.itemScope active loop item text)
        (some loop.iteration)
  /-- The step sends its request for the current item, for which its condition is
  true. -/
  | guardedItem {loop : Loop} {item : Value} {ahead : List Value} {text : String}
      {guard : SourceCondition} {value : Value}
      (looping : active.progress = .looping loop)
      (items : loop.ahead = item :: ahead) (bound : item.text = .ok text)
      (guarded : active.guard = some guard)
      (answered :
        evaluator (run.itemQuery active loop item text guard) = .ok value)
      (accepted : value.isTruthy = true) :
      Ready evaluator run active
        [.noted (.asked (run.itemQuery active loop item text guard))] active
        (run.itemScope active loop item text) (some loop.iteration)

/-- One move of a run, with its acts. -/
inductive Move (evaluator : Evaluator) (run : Run) :
    Stage → Log → Run → Stage → Prop where
  /-- A result is recorded and the run goes on. -/
  | goesOn {stage : Stage} {acts : Log} {result : StepResult} {policy : Policy}
      {next : Run} (yields : Yields evaluator run stage acts result policy next)
      (lasting : (result.isFailure && policy.halts) = false) :
      Move evaluator run stage (acts ++ [.recorded result]) next .working
  /-- A failure is recorded and ends the run. -/
  | stops {stage : Stage} {acts : Log} {result : StepResult} {policy : Policy}
      {next : Run} (yields : Yields evaluator run stage acts result policy next)
      (halting : (result.isFailure && policy.halts) = true) :
      Move evaluator run stage (acts ++ [.recorded result]) (run.stoppedBy result)
        (.over .stopped)
  | enters {step : ResolvedStep} {asked : Log} {active : ActiveStep}
      (free : run.active = none)
      (current : run.workflow.steps[run.stepIndex]? = some step)
      (decided :
        step.next (run.contextFor evaluator step) = ⟨asked, .dispatch active⟩) :
      Move evaluator run .working asked { run with active := some active } .working
  /-- The active step is left. -/
  | leaves {active : ActiveStep}
      (present : run.active = some active)
      (finished : active.progress = .single true ∨
        ∃ loop, active.progress = .looping loop ∧ loop.ahead = []) :
      Move evaluator run .working [] { run.nextStep with active := none } .working
  /-- The active step sends its request. -/
  | sends {active sender : ActiveStep} {asked : Log} {scope : DispatchScope}
      {iteration : Option Iteration} (present : run.active = some active)
      (ready : Ready evaluator run active asked sender scope iteration) :
      Move evaluator run .working
        (asked ++ [.sent (run.send sender scope iteration).2])
        (run.send sender scope iteration).1
        (.waiting (run.send sender scope iteration).2)
  /-- No step is left to do. -/
  | completes (free : run.active = none)
      (done : run.workflow.steps.length ≤ run.stepIndex) :
      Move evaluator run .working [] run (.over .completed)
  | cancels {dispatch : Dispatch} :
      Move evaluator run (.waiting dispatch) [] run (.over .canceled)

/-- A run gets from one stage to another by moves, with these acts. -/
inductive Reaches (evaluator : Evaluator) (first : Run) (start : Stage) :
    Log → Run → Stage → Prop where
  | refl : Reaches evaluator first start [] first start
  | move {log acts : Log} {run next : Run} {stage later : Stage}
      (reached : Reaches evaluator first start log run stage)
      (moved : Move evaluator run stage acts next later) :
      Reaches evaluator first start (log ++ acts) next later

/-- Courses are put one behind the other, with their logs. -/
theorem Reaches.trans {evaluator : Evaluator} {first middle last : Run}
    {start between stage : Stage} {log more : Log}
    (left : Reaches evaluator first start log middle between)
    (right : Reaches evaluator middle between more last stage) :
    Reaches evaluator first start (log ++ more) last stage := by
  induction right with
  | refl =>
      rw [List.append_nil]
      exact left
  | move reached moved hypothesis =>
      rw [← List.append_assoc]
      exact .move hypothesis moved

theorem Move.reaches {evaluator : Evaluator} {run next : Run} {stage later : Stage}
    {acts : Log} (moved : Move evaluator run stage acts next later) :
    Reaches evaluator run stage acts next later :=
  .move .refl moved

theorem Reaches.head {evaluator : Evaluator} {first middle last : Run}
    {start between stage : Stage} {acts log : Log}
    (moved : Move evaluator first start acts middle between)
    (reached : Reaches evaluator middle between log last stage) :
    Reaches evaluator first start (acts ++ log) last stage :=
  moved.reaches.trans reached

/-- The workflow of a run does not change. -/
theorem Move.workflow_eq {evaluator : Evaluator} {run next : Run}
    {stage later : Stage} {acts : Log}
    (moved : Move evaluator run stage acts next later) :
    next.workflow = run.workflow := by
  cases moved with
  | goesOn yields lasting => cases yields <;> rfl
  | _ => rfl

/-- The number of a run does not change. -/
theorem Move.id_eq {evaluator : Evaluator} {run next : Run} {stage later : Stage}
    {acts : Log} (moved : Move evaluator run stage acts next later) :
    next.id = run.id := by
  cases moved with
  | goesOn yields lasting => cases yields <;> rfl
  | _ => rfl

/-- The origin of a run does not change. -/
theorem Move.origin_eq {evaluator : Evaluator} {run next : Run}
    {stage later : Stage} {acts : Log}
    (moved : Move evaluator run stage acts next later) :
    next.origin = run.origin := by
  cases moved with
  | goesOn yields lasting => cases yields <;> rfl
  | _ => rfl

/-- No move changes the workflow of its run, its number or its origin. -/
theorem Reaches.workflow_eq {evaluator : Evaluator} {first run : Run}
    {start stage : Stage} {log : Log}
    (reached : Reaches evaluator first start log run stage) :
    run.workflow = first.workflow := by
  induction reached with
  | refl => rfl
  | move reached moved hypothesis => exact moved.workflow_eq.trans hypothesis

theorem Reaches.id_eq {evaluator : Evaluator} {first run : Run}
    {start stage : Stage} {log : Log}
    (reached : Reaches evaluator first start log run stage) :
    run.id = first.id := by
  induction reached with
  | refl => rfl
  | move reached moved hypothesis => exact moved.id_eq.trans hypothesis

theorem Reaches.origin_eq {evaluator : Evaluator} {first run : Run}
    {start stage : Stage} {log : Log}
    (reached : Reaches evaluator first start log run stage) :
    run.origin = first.origin := by
  induction reached with
  | refl => rfl
  | move reached moved hypothesis => exact moved.origin_eq.trans hypothesis

end Run

end RequestFlow
