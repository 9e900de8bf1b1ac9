import RequestFlow.Run.Loop
import RequestFlow.Run.Report
import RequestFlow.Run.Trace
import RequestFlow.Workflow.Resolved

/-!
# What a step does next

A declared step either becomes active, to send its request once or once per item
of a loop, or ends at once with a result: it is skipped, its branch fails, or a
condition of it cannot be evaluated.  Conditions are evaluated in order and no
further than needed, and every evaluation is noted.
-/

namespace RequestFlow

open Condition

/-- How far an active step is. -/
inductive Progress where
  /-- A single dispatch, to come or under way. -/
  | single (dispatched : Bool)
  | looping (loop : Loop)

/-- Goes on to the next item of a loop. -/
def Progress.advance : Progress → Progress
  | single dispatched => single dispatched
  | looping loop => looping loop.advance

/-- A step that sends a request. -/
structure ActiveStep where
  stepIndex : Nat
  label : String
  request : Request
  branch : Option String
  policy : Policy
  /-- The condition that is evaluated for every item of a loop. -/
  guard : Option SourceCondition
  /-- What the response is expected to be. -/
  expect : Dictionary String
  bindings : Dictionary String
  options : Options
  progress : Progress

namespace ActiveStep

/-- The label to show. -/
def displayLabel (active : ActiveStep) (iteration : Option Iteration) : String :=
  fullLabel active.label active.branch iteration

/-- A result of the step without a response. -/
def result (active : ActiveStep) (status : StepStatus)
    (iteration : Option Iteration) (message : Option String) : StepResult :=
  { stepIndex := active.stepIndex
    stepLabel := active.label
    request := some active.request.name
    branch := active.branch
    status := status
    statusText := ""
    duration := 0
    message := message
    response := none
    iteration := iteration
    error := none }

/-- The result of a step that failed at an item of its loop before the request was
sent. -/
def failure (active : ActiveStep) (iteration : Iteration)
    (message error : String) : StepResult :=
  { active.result .failed (some iteration) (some message) with
    error := some error }

/-- The step at a place of its loop. -/
def inLoop (active : ActiveStep) (loop : Loop) : ActiveStep :=
  { active with progress := .looping loop }

/-- The step once its request was answered. -/
def advance (active : ActiveStep) : ActiveStep :=
  { active with progress := active.progress.advance }

end ActiveStep

/-- What a step does next. -/
inductive NextAction where
  | dispatch (active : ActiveStep)
  /-- It ends with a result under a policy. -/
  | record (result : StepResult) (policy : Policy)

/-- What a step decides with. -/
structure StepContext where
  workflow : ResolvedWorkflow
  evaluator : Evaluator
  scope : DispatchScope
  origin : RunOrigin

/-- The wording of a condition that cannot be evaluated. -/
def conditionFailure (role : Role) (error : ValueError) : String :=
  s!"{role.text} failed: {error.message}"

/-- A condition of a step in a scope. -/
def queryOf (workflow : String) (stepIndex : Nat) (role : Role)
    (condition : SourceCondition) (scope : DispatchScope) : Query :=
  { workflow := workflow
    step := stepIndex + 1
    role := role
    line := condition.line
    text := condition.text
    bindings := scope.bindings
    typed := scope.typed }

namespace StepContext

/-- Puts a condition of a step to the evaluator. -/
def ask (context : StepContext) (core : StepCore) (role : Role)
    (condition : SourceCondition) : Traced (Except ValueError Value) :=
  Traced.ask context.evaluator
    (queryOf context.workflow.name core.index role condition context.scope)

end StepContext

/-- Ends a step with a result. -/
def StepCore.record (core : StepCore) (request branch : Option String)
    (policy : Policy) (status : StepStatus) (message : String)
    (error : Option String) : NextAction :=
  .record
    { stepIndex := core.index
      stepLabel := core.label
      request := request
      branch := branch
      status := status
      statusText := ""
      duration := 0
      message := some message
      response := none
      iteration := none
      error := error }
    policy

namespace StepCore

/-- Ends a step that is skipped as a whole. -/
def skip (core : StepCore) (message : String) : NextAction :=
  core.record none none core.policy .skipped message none

/-- Ends a step whose own condition cannot be evaluated. -/
def conditionFailed (core : StepCore) (role : Role) (error : ValueError) :
    NextAction :=
  core.record none none core.policy .failed (conditionFailure role error)
    (some error.message)

end StepCore

/-- What is said where a condition is false. -/
def guardIsFalse : String := "@when condition is false"

/-- The request's own condition. -/
def Request.ownGuard (request : Request) : Option SourceCondition :=
  request.guard.map fun text => ⟨text, request.line⟩

/-- A request that is about to be sent on behalf of a step. -/
structure Target where
  request : Request
  /-- The branch that led to it. -/
  branch : Option String
  policy : Policy
  /-- The condition under which it is sent. -/
  guard : Option SourceCondition
  /-- The loop that it is sent in. -/
  loop : Option LoopDefinition

namespace Target

/-- Makes the step active. -/
def activate (context : StepContext) (core : StepCore) (target : Target)
    (guard : Option SourceCondition) (progress : Progress) : NextAction :=
  .dispatch
    { stepIndex := core.index
      label := core.label
      request := target.request
      branch := target.branch
      policy := target.policy
      guard := guard
      expect := core.expect
      bindings := core.bindings
      options :=
        (context.workflow.options.overlay target.request.options).overlay
          core.options
      progress := progress }

/-- Ends the step with a result of the request. -/
def record (core : StepCore) (target : Target) (status : StepStatus)
    (message : String) (error : Option String) : NextAction :=
  core.record (some target.request.name) target.branch target.policy status message
    error

/-- Ends the step because a condition of the request cannot be evaluated. -/
def conditionFailed (core : StepCore) (target : Target) (role : Role)
    (error : ValueError) : NextAction :=
  target.record core .failed (conditionFailure role error) (some error.message)

/-- A request without a loop is sent if its condition is true or absent. -/
def nextSingle (context : StepContext) (core : StepCore) (target : Target) :
    Traced NextAction :=
  match target.guard with
  | none => pure (target.activate context core none (.single false))
  | some guard => do
      match ← context.ask core .guard guard with
      | .error error => pure (target.conditionFailed core .guard error)
      | .ok value =>
          if value.isTruthy then
            pure (target.activate context core none (.single false))
          else pure (target.record core .skipped guardIsFalse none)

/-- The condition that yields the items of a loop. -/
def loopSource (core : StepCore) (loop : LoopDefinition) : SourceCondition :=
  ⟨loop.source, if 0 < loop.line then loop.line else core.line⟩

/-- A request with a loop is sent for each item, the condition being left to the
items. -/
def nextLoop (context : StepContext) (core : StepCore) (target : Target)
    (loop : LoopDefinition) : Traced NextAction := do
  let source ← context.ask core .loop (loopSource core loop)
  match source.bind Value.items with
  | .error error => pure (target.conditionFailed core .loop error)
  | .ok items =>
      match Loop.start? items loop.name context.origin.promotes with
      | some started =>
          pure (target.activate context core target.guard (.looping started))
      | none => pure (target.record core .skipped "produced no items" none)

/-- What the step does with the request. -/
def next (context : StepContext) (core : StepCore) (target : Target) :
    Traced NextAction :=
  match target.loop with
  | none => target.nextSingle context core
  | some loop => target.nextLoop context core loop

end Target

/-- What is said where a request is not in the table. -/
def unknownRequest (name : String) : String :=
  s!"unknown request '{name}'"

/-- What a step does once a branch is taken. -/
def ResolvedBranch.take (context : StepContext) (core : StepCore)
    (branch : ResolvedBranch) : Traced NextAction :=
  match branch.action with
  | .fail message => pure (core.record none none core.policy .failed message none)
  | .run name policy =>
      match context.workflow.request? name with
      | none =>
          pure (core.record (some name) (some name) policy .failed
            (unknownRequest name) none)
      | some request =>
          Target.next context core
            ⟨request, some request.name, policy, request.ownGuard, request.loop⟩

/-- The first branch whose condition is accepted, or the error of one that cannot
be evaluated. Each condition is asked in the role that the step has for it. -/
def firstAccepted (context : StepContext) (core : StepCore)
    (roleOf : ResolvedBranch → Role) (accepts : Value → Bool) :
    List ResolvedBranch →
      Traced (Except (Role × ValueError) (Option ResolvedBranch))
  | [] => pure (.ok none)
  | branch :: branches =>
      match branch.condition with
      | none => firstAccepted context core roleOf accepts branches
      | some condition => do
          match ← context.ask core (roleOf branch) condition with
          | .error error => pure (.error (roleOf branch, error))
          | .ok value =>
              if accepts value then pure (.ok (some branch))
              else firstAccepted context core roleOf accepts branches

/-- What a step does with the branch that was found. -/
def choose (context : StepContext) (core : StepCore)
    (otherwise : Option ResolvedBranch) (noMatch : String)
    (found : Except (Role × ValueError) (Option ResolvedBranch)) :
    Traced NextAction :=
  match found with
  | .error (role, error) => pure (core.conditionFailed role error)
  | .ok branch =>
      match branch.or otherwise with
      | some branch => branch.take context core
      | none => pure (core.skip noMatch)

/-- Goes on if the step's own condition is true or absent. -/
def gated (context : StepContext) (core : StepCore) (go : Traced NextAction) :
    Traced NextAction :=
  match core.guard with
  | none => go
  | some guard => do
      match ← context.ask core .guard guard with
      | .error error => pure (core.conditionFailed .guard error)
      | .ok value => if value.isTruthy then go else pure (core.skip guardIsFalse)

/-- What a step does next. -/
def ResolvedStep.next (context : StepContext) : ResolvedStep → Traced NextAction
  | .request core name loop =>
      match context.workflow.request? name with
      | none =>
          pure (core.record (some name) none core.policy .failed
            (unknownRequest name) none)
      | some found =>
          Target.next context core
            ⟨found, none, core.policy, core.guard.or found.ownGuard, loop⟩
  | .conditional core arms otherwise =>
      gated context core do
        let found ← firstAccepted context core ResolvedBranch.role Value.isTruthy
            arms
        choose context core otherwise "no @if branch matched" found
  | .switch core subject cases otherwise =>
      gated context core do
        match ← context.ask core .subject subject with
        | .error error => pure (core.conditionFailed .subject error)
        | .ok value =>
            let found ← firstAccepted context core (fun _ => .alternative)
              (fun case => case.equals value) cases
            choose context core otherwise "no @switch case matched" found

end RequestFlow
