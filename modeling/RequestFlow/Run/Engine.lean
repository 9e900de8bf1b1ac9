import RequestFlow.Run.Judgement
import RequestFlow.Run.Step
import RequestFlow.Workflow.Resolution

/-!
# The engine

The engine runs one workflow at a time and has one request under way.  It is asked
to start a run, told the outcome of the request, or told to cancel; it answers
with the next request to send or with the report of the finished run.  Between
requests it works through the steps in order: a step without a request leaves a
result and the next one follows, a loop goes on to its next item.
-/

namespace RequestFlow

open Condition

/-- The request under way. -/
structure InFlight where
  token : Token
  iteration : Option Iteration
  bindings : Scope
  /-- The line that shows the step. -/
  statusLine : String

/-- What a run is started with. -/
structure RunRequest where
  document : Document
  workflow : WorkflowDefinition
  origin : RunOrigin
  ambient : Scope

/-- Why a run does not start. -/
inductive StartError where
  | runActive
  | unknownWorkflow (name : String)
  | unknownRequest (name : String)
  /-- The request has no loop of its own. -/
  | noLoop (name : String)
  | unresolved (error : ResolutionError)
  deriving DecidableEq

/-- The wording of an error. -/
def StartError.message : StartError → String
  | runActive => "a workflow run is already in progress"
  | unknownWorkflow name => s!"unknown workflow '{name}'"
  | unknownRequest name => s!"unknown request '{name}'"
  | noLoop name => s!"request '{name}' does not declare a for-each loop"
  | unresolved error => error.message

namespace RunRequest

/-- A run of a declared workflow. -/
def ofWorkflow (document : Document) (name : String) :
    Except StartError RunRequest :=
  match document.findWorkflow? name with
  | none => .error (.unknownWorkflow (Text.trimmed name))
  | some workflow => .ok ⟨document, workflow, .workflow, document.bindings⟩

/-- The workflow that sends a request in its own loop. -/
def loopWorkflow (request : Request) : WorkflowDefinition :=
  { name := request.name
    description := none
    tags := []
    policy := default
    options := .inherit
    bindings := .empty
    steps := [{ StepDefinition.ofKind .forEach with
      using_ := some request.name
      line := request.line }]
    line := request.line }

/-- A run of a request in its own loop. -/
def ofRequest (document : Document) (name : String) :
    Except StartError RunRequest :=
  match document.findRequest? name with
  | none => .error (.unknownRequest (Text.trimmed name))
  | some request =>
      if request.loop.isNone then .error (.noLoop request.name)
      else .ok ⟨document, loopWorkflow request, .adHoc, document.bindings⟩

/-- Lays variables over the ambient ones. -/
def withAmbient (request : RunRequest) (bindings : Scope) : RunRequest :=
  { request with ambient := request.ambient.overlay bindings }

end RunRequest

/-- A run under way. -/
structure Run where
  id : Nat
  workflow : ResolvedWorkflow
  origin : RunOrigin
  ambient : Scope
  scope : Scope
  /-- The index of the current step. -/
  stepIndex : Nat
  results : List StepResult
  /-- The step that is sending its request. -/
  active : Option ActiveStep
  inFlight : Option InFlight
  /-- The number of dispatches so far. -/
  sequence : Nat
  startedAt : Int

/-- What an active step comes to. -/
inductive Advance where
  | dispatched (run : Run) (dispatch : Dispatch)
  | done (run : Run)
  | halted (run : Run)

/-- What a run comes to. -/
inductive Progression where
  /-- A request is to be sent. -/
  | dispatched (run : Run) (dispatch : Dispatch)
  | finished (run : Run) (ending : RunEnd)

namespace Run

/-- The run with one more result. -/
def withResult (run : Run) (result : StepResult) : Run :=
  { run with results := run.results ++ [result] }

/-- Records a result. -/
def record (run : Run) (result : StepResult) : Traced Run := do
  Traced.record result
  return run.withResult result

@[simp] theorem log_record (run : Run) (result : StepResult) :
    (run.record result).log = [.recorded result] := rfl

@[simp] theorem value_record (run : Run) (result : StepResult) :
    (run.record result).value = run.withResult result := rfl

/-- Goes on to the next step. -/
def nextStep (run : Run) : Run :=
  { run with stepIndex := run.stepIndex + 1 }

/-- The scope of a step in the run. -/
def scopeFor (run : Run) (bindings : Dictionary String)
    (binding : Option LoopBinding) : DispatchScope :=
  .build run.ambient run.scope bindings binding

/-- Sends the request of an active step. -/
def send (run : Run) (active : ActiveStep) (scope : DispatchScope)
    (iteration : Option Iteration) : Run × Dispatch :=
  let token : Token := ⟨run.id, run.sequence + 1⟩
  let line :=
    statusLine active.stepIndex run.workflow.totalSteps
      (active.displayLabel iteration)
  ({ run with
      sequence := run.sequence + 1
      scope := Scope.persist run.scope scope.bindings active.bindings
      active := some active
      inFlight := some ⟨token, iteration, scope.bindings, line⟩ },
    { token := token
      stepIndex := active.stepIndex
      statusLine := line
      request := active.request.prepare scope.bindings
      options := active.options
      bindings := scope.bindings })

/-- Sends the request of an active step and waits for the answer. -/
def sendNow (run : Run) (active : ActiveStep) (scope : DispatchScope)
    (iteration : Option Iteration) : Traced Advance := do
  let sent := run.send active scope iteration
  Traced.send sent.2
  return .dispatched sent.1 sent.2

@[simp]
theorem value_sendNow (run : Run) (active : ActiveStep) (scope : DispatchScope)
    (iteration : Option Iteration) :
    (run.sendNow active scope iteration).value =
      .dispatched (run.send active scope iteration).1
        (run.send active scope iteration).2 :=
  rfl

/-- Records a failure of an active step and raises its error. -/
def recordFailure (run : Run) (active : ActiveStep) (iteration : Iteration)
    (message error : String) : Traced Run := do
  let result := active.failure iteration message error
  Traced.raise s!"{result.displayLabel}: {error}"
  run.record result

/-- What is said where an item has no text. -/
def unboundItem (iteration : Iteration) (name : String) (error : ValueError) :
    String :=
  s!"for-each item {iteration.text} cannot be bound to '{name}': {error.message}"

/-- Goes through the items of a loop up to the next one to send the request for. -/
def advanceItems (evaluator : Evaluator) (active : ActiveStep) (name : String)
    (keys : List String) : Nat → List Value → Run → Traced Advance
  | _, [], run => pure (.done run)
  | done, item :: ahead, run => do
      let loop : Loop := ⟨done, item :: ahead, name, keys⟩
      let iteration := loop.iteration
      match item.text with
      | .error error =>
          let run ← run.recordFailure active iteration
              (unboundItem iteration name error) error.message
          if active.policy.halts then pure (.halted run)
          else advanceItems evaluator active name keys (done + 1) ahead run
      | .ok text =>
          let scope := run.scopeFor active.bindings (some ⟨name, keys, text, item⟩)
          let sending := run.sendNow (active.inLoop loop) scope (some iteration)
          match active.guard with
          | none => sending
          | some guard =>
              match ← Traced.ask evaluator
                  (queryOf run.workflow.name active.stepIndex .guard guard
                    scope) with
              | .ok value =>
                  if value.isTruthy then sending
                  else do
                    let run ← run.record
                      (active.result .skipped (some iteration) (some guardIsFalse))
                    advanceItems evaluator active name keys (done + 1) ahead run
              | .error error =>
                  let run ← run.recordFailure active iteration
                      (conditionFailure .guard error) error.message
                  if active.policy.halts then pure (.halted run)
                  else advanceItems evaluator active name keys (done + 1) ahead run

/-- Goes on with an active step. -/
def advanceActive (run : Run) (evaluator : Evaluator) (active : ActiveStep) :
    Traced Advance :=
  match active.progress with
  | .single true => pure (.done run)
  | .single false =>
      run.sendNow { active with progress := .single true }
        (run.scopeFor active.bindings none) none
  | .looping loop =>
      advanceItems evaluator active loop.name loop.keys loop.done loop.ahead run

/-- Raises the error of a result, if it has one. -/
def raiseErrorOf (result : StepResult) : Traced Unit :=
  match result.error with
  | none => pure ()
  | some error => Traced.raise s!"{result.displayLabel}: {error}"

@[simp]
theorem queries_raiseErrorOf (result : StepResult) :
    (raiseErrorOf result).log.queries = [] := by
  rw [raiseErrorOf]
  split <;> rfl

@[simp]
theorem results_raiseErrorOf (result : StepResult) :
    (raiseErrorOf result).log.results = [] := by
  rw [raiseErrorOf]
  split <;> rfl

@[simp] theorem dispatches_raiseErrorOf (result : StepResult) :
    (raiseErrorOf result).log.dispatches = [] := by
  rw [raiseErrorOf]
  split <;> rfl

/-- Works through steps up to the next request. -/
def proceed (evaluator : Evaluator) : List ResolvedStep → Run → Traced Progression
  | [], run => pure (.finished run .completed)
  | step :: steps, run => do
      let scope := run.scopeFor step.core.bindings none
      match ← step.next ⟨run.workflow, evaluator, scope, run.origin⟩ with
      | .record result policy =>
          raiseErrorOf result
          let run ← run.record result
          if result.isFailure && policy.halts then pure (.finished run .stopped)
          else proceed evaluator steps run.nextStep
      | .dispatch active =>
          match ← run.advanceActive evaluator active with
          | .dispatched run dispatch => pure (.dispatched run dispatch)
          | .halted run => pure (.finished run .stopped)
          | .done run => proceed evaluator steps run.nextStep

/-- The steps from an index on. -/
def stepsFrom (run : Run) (index : Nat) : List ResolvedStep :=
  run.workflow.steps.drop index

/-- Goes on with the active step, if there is one, and then with those after it. -/
def resume (run : Run) (evaluator : Evaluator) : Traced Progression :=
  match run.active with
  | none => run.proceed evaluator (run.stepsFrom run.stepIndex)
  | some active => do
      match ← ({ run with active := none }).advanceActive evaluator active with
      | .dispatched run dispatch => pure (.dispatched run dispatch)
      | .halted run => pure (.finished run .stopped)
      | .done run =>
          run.nextStep.proceed evaluator (run.stepsFrom (run.stepIndex + 1))

/-- The status of a run that came to an end. -/
def statusOf (results : List StepResult) (ending : RunEnd) : RunStatus :=
  if ending = .canceled then .canceled
  else if results.any StepResult.isFailure then .failed
  else .succeeded

/-- The report of a run that came to an end. -/
def report (run : Run) (ending : RunEnd) (reason : Option String) (now : Int) :
    Report :=
  { runId := run.id
    workflow := run.workflow.name
    origin := run.origin
    status := statusOf run.results ending
    summary := summarize run.results run.workflow.totalSteps ending
    results := run.results
    totalSteps := run.workflow.totalSteps
    stopped := ending = .stopped
    canceledReason := reason
    startedAt := run.startedAt
    finishedAt := now }

/-- The result of an answered request. -/
def resultOf (active : ActiveStep) (inFlight : InFlight) : Snapshot → StepResult :=
  fun snapshot =>
    let verdict := judge snapshot active.expect inFlight.bindings
    { active.result verdict.status inFlight.iteration verdict.message with
      statusText := snapshot.status
      duration := snapshot.duration
      error := verdict.error
      response := some snapshot }

end Run

/-- What the engine wants to happen next. -/
inductive Directive where
  /-- A request is to be sent. -/
  | dispatch (dispatch : Dispatch)
  | finished (report : Report)
  /-- The answer belongs to no request under way. -/
  | stale
  deriving DecidableEq

/-- The engine. -/
structure Engine where
  run : Option Run
  /-- The number of the run that was started last. -/
  lastRunId : Nat
  /-- Errors that were raised and not yet collected. -/
  errors : List String

namespace Engine

/-- An engine that has run nothing. -/
def idle : Engine := ⟨none, 0, []⟩

/-- A run is under way. -/
def isActive (engine : Engine) : Bool :=
  engine.run.isSome

/-- The results of the run under way. -/
def results (engine : Engine) : List StepResult :=
  (engine.run.map Run.results).getD []

/-- The line that shows the step under way. -/
def statusLine? (engine : Engine) : Option String :=
  (engine.run.bind Run.inFlight).map InFlight.statusLine

/-- Collects the errors raised since the last time. -/
def drainErrors (engine : Engine) : List String × Engine :=
  (engine.errors, { engine with errors := [] })

/-- Takes over what a run came to. -/
def settle (engine : Engine) (now : Int) (traced : Traced Progression) :
    Traced (Directive × Engine) :=
  let errors := engine.errors ++ traced.errors
  ⟨traced.log,
    match traced.value with
    | .dispatched run dispatch =>
        (.dispatch dispatch, { engine with run := some run, errors })
    | .finished run ending =>
        (.finished (run.report ending none now),
          { engine with run := none, errors })⟩

/-- The state of a run that begins. -/
def beginRun (engine : Engine) (request : RunRequest) (workflow : ResolvedWorkflow)
    (now : Int) : Run :=
  { id := engine.lastRunId + 1
    workflow := workflow
    origin := request.origin
    ambient := request.ambient
    scope := Scope.ofWorkflow workflow.bindings
    stepIndex := 0
    results := []
    active := none
    inFlight := none
    sequence := 0
    startedAt := now }

/-- Starts a run; while one is under way, or if a step is faulty, nothing
changes. -/
def start (engine : Engine) (evaluator : Evaluator) (request : RunRequest)
    (now : Int) : Traced (Except StartError Directive × Engine) :=
  match engine.run with
  | some _ => pure (.error .runActive, engine)
  | none =>
      match request.workflow.resolve request.document with
      | .error error => pure (.error (.unresolved error), engine)
      | .ok workflow => do
          let run := engine.beginRun request workflow now
          let settled ← settle { engine with lastRunId := run.id } now
              (run.resume evaluator)
          return (.ok settled.1, settled.2)

/-- Ends the run under way. -/
def cancel (engine : Engine) (reason : Option String) (now : Int) :
    Option Report × Engine :=
  match engine.run with
  | none => (none, engine)
  | some run =>
      (some (run.report .canceled reason now), { engine with run := none })

/-- Records the result of an answered request and goes on. -/
def accept (engine : Engine) (evaluator : Evaluator) (run : Run)
    (active : ActiveStep) (result : StepResult) (now : Int) :
    Traced (Directive × Engine) := do
  let run ← run.record result
  if result.isFailure && active.policy.halts then
    return (.finished (run.report .stopped none now), { engine with run := none })
  else
    engine.settle now
      (Run.resume { run with active := some active.advance } evaluator)

/-- Takes the outcome of the request under way; any other answer changes nothing.
A request under way without a step that sent it is dropped. -/
def respond (engine : Engine) (evaluator : Evaluator) (token : Token)
    (outcome : Outcome) (now : Int) : Traced (Directive × Engine) :=
  match engine.run with
  | none => pure (.stale, engine)
  | some run =>
      match run.inFlight with
      | none => pure (.stale, engine)
      | some inFlight =>
          if inFlight.token ≠ token then pure (.stale, engine)
          else
            let taken := { run with inFlight := none, active := none }
            match run.active with
            | none => pure (.stale, { engine with run := some taken })
            | some active =>
                match outcome with
                | .canceled =>
                    pure (.finished
                        (taken.report .canceled
                          (some "canceled by the execution client") now),
                      { engine with run := none })
                | .skipped reason =>
                    engine.accept evaluator taken active
                      (active.result .skipped inFlight.iteration (some reason)) now
                | .completed snapshot =>
                    engine.accept evaluator taken active
                      (Run.resultOf active inFlight snapshot) now

end Engine

end RequestFlow
