import RequestFlow.Proofs.Position
import RequestFlow.Proofs.Sending

/-!
# Under which condition a request is sent

A request can have a condition of its own, and so can a step.  A branch sends its
request under the request's own condition.  A step that names its request sends it
under the condition of the step, and under that of the request only if the step
has none.  Main statement: whatever the answers are, the last thing before each
dispatch of a play is that this condition was evaluated, with exactly the
variables of the dispatch, and was true.
-/

namespace RequestFlow

open Condition

/-! ## Acts in view of those before them -/

namespace Log

/-- Each act is as it is to be after the acts before it. -/
def Each (holds : Log → Act → Prop) (log : Log) : Prop :=
  ∀ before act since, log = before ++ act :: since → holds before act

variable {holds : Log → Act → Prop} {log acts : Log}

theorem each_nil : Each holds [] := by
  intro before act since split
  exact (List.append_ne_nil_of_right_ne_nil _ (List.cons_ne_nil _ _)
    split.symm).elim

theorem each_singleton {act : Act} (there : holds [] act) : Each holds [act] := by
  intro before other since split
  cases before with
  | nil =>
      rcases List.cons.inj split with ⟨rfl, _⟩
      exact there
  | cons head before =>
      have none := (List.cons.inj split).2
      exact (List.append_ne_nil_of_right_ne_nil _ (List.cons_ne_nil _ _)
        none.symm).elim

theorem Each.append (each : log.Each holds)
    (more : acts.Each fun before => holds (log ++ before)) :
    Each holds (log ++ acts) := by
  intro before act since split
  rcases List.append_eq_append_iff.mp split with
    ⟨middle, rfl, later⟩ | ⟨middle, earlier, later⟩
  · exact more middle act since later
  · cases middle with
    | nil =>
        rw [List.append_nil] at earlier
        subst earlier
        have first : holds (log ++ []) act := more [] act since later.symm
        rw [List.append_nil] at first
        exact first
    | cons head middle =>
        rcases List.cons.inj later with ⟨rfl, _⟩
        exact each before act middle earlier

/-- One more act. -/
theorem Each.concat (each : log.Each holds) {act : Act} (there : holds log act) :
    Each holds (log ++ [act]) := by
  refine each.append (each_singleton ?_)
  rw [List.append_nil]
  exact there

end Log

/-! ## The condition of a dispatch -/

/-- Only a step that names its request and has a condition does without the
condition of the request. -/
theorem StepDefinition.sendingGuard_eq_ownGuard {definition : StepDefinition}
    {request : Request}
    (other :
      definition.guard? = none ∨ definition.kind = .conditional ∨
        definition.kind = .switch) :
    definition.sendingGuard request = request.ownGuard := by
  rcases other with none | branched
  · rw [sendingGuard, none, Option.none_or]
    cases definition.kind <;> rfl
  · exact (sending_of_branched branched request).1

/-- A request is sent after the condition that it is sent under was true for its
variables. -/
structure Dispatch.Guarded (workflow : WorkflowDefinition)
    (resolved : ResolvedWorkflow) (evaluator : Evaluator) (before : Log)
    (definition : StepDefinition) (template : Request) (dispatch : Dispatch) :
    Prop where
  declared : workflow.steps[dispatch.stepIndex]? = some definition
  known : resolved.request? dispatch.request.name = some template
  prepared : dispatch.request = template.prepare dispatch.bindings
  affirmed :
    ∀ guard, definition.sendingGuard template = some guard →
      ∃ typed,
        before.Affirmed evaluator
          (queryOf resolved.name dispatch.stepIndex .guard guard
            ⟨dispatch.bindings, typed⟩)
  /-- The request's own condition is disregarded only where the step has one in
  its place. -/
  own :
    definition.guard? = none ∨ definition.kind = .conditional ∨
        definition.kind = .switch →
      ∀ guard, template.ownGuard = some guard →
        ∃ typed,
          before.Affirmed evaluator
            (queryOf resolved.name dispatch.stepIndex .guard guard
              ⟨dispatch.bindings, typed⟩)

/-- What is sent is sent under its condition. -/
def Act.Guarded (workflow : WorkflowDefinition) (resolved : ResolvedWorkflow)
    (evaluator : Evaluator) (before : Log) : Act → Prop
  | sent dispatch => ∃ definition template,
      dispatch.Guarded workflow resolved evaluator before definition template
  | _ => True

namespace Run

/-! ## What the active step is sent under -/

/-- The active step sends a request of the workflow: once, after the condition was
true, or item by item under the condition. -/
def Primed (workflow : WorkflowDefinition) (evaluator : Evaluator) (run : Run)
    (stage : Stage) (log : Log) : Prop :=
  ∀ active, run.active = some active →
    run.workflow.request? active.request.name = some active.request ∧
      ∃ definition, workflow.steps[active.stepIndex]? = some definition ∧
        match active.progress with
        | .single true => True
        | .single false =>
            stage = .working ∧
              ∀ guard, definition.sendingGuard active.request = some guard →
                log.Affirmed evaluator
                  (queryOf run.workflow.name active.stepIndex .guard guard
                    (run.scopeFor active.bindings none))
        | .looping _ => active.guard = definition.sendingGuard active.request

section Moves

variable {workflow : WorkflowDefinition} {evaluator : Evaluator} {run next : Run}
  {stage later : Stage} {log acts : Log}

theorem Primed.of_free (free : run.active = none) :
    Primed workflow evaluator run stage log := by
  intro active present
  rw [free] at present
  cases present

/-- An active step that is no more to send its request once. -/
theorem Primed.of_begun {active begun : ActiveStep}
    (primed : Primed workflow evaluator run stage log)
    (present : run.active = some active) (following : next.active = some begun)
    (same : next.workflow = run.workflow)
    (request : begun.request = active.request)
    (stepIndex : begun.stepIndex = active.stepIndex)
    (guard : begun.guard = active.guard)
    (progress :
      begun.progress = .single true ∨
        (∃ loop, begun.progress = .looping loop) ∧
          ∃ loop, active.progress = .looping loop) :
    Primed workflow evaluator next later acts := by
  intro other equal
  rcases Option.some.inj (following.symm.trans equal) with rfl
  rcases primed active present with ⟨known, definition, declared, rest⟩
  rw [same, request, stepIndex, guard]
  refine ⟨known, definition, declared, ?_⟩
  rcases progress with single | ⟨⟨loop, looping⟩, ⟨before, walking⟩⟩
  · rw [single]
    trivial
  · simp only [walking] at rest
    rw [looping]
    exact rest

theorem Yields.primed {result : StepResult} {policy : Policy}
    (yields : Yields evaluator run stage acts result policy next)
    (primed : Primed workflow evaluator run stage log) (more : Log) :
    Primed workflow evaluator next .working more := by
  cases yields with
  | settled free current decided => exact .of_free free
  | passedOver present looping items passed =>
      have walking := congrArg Progress.advance looping
      exact primed.of_begun present rfl rfl rfl rfl rfl
        (.inr ⟨⟨_, walking⟩, ⟨_, looping⟩⟩)
  | @answered dispatch active inFlight outcome result flying present answer =>
      refine primed.of_begun present rfl rfl rfl rfl rfl ?_
      rcases primed active present with ⟨known, definition, declared, rest⟩
      cases progress : active.progress with
      | single dispatched =>
          cases dispatched with
          | true => exact .inl (congrArg Progress.advance progress)
          | false =>
              simp only [progress] at rest
              cases rest.1
      | looping loop =>
          exact .inr ⟨⟨_, congrArg Progress.advance progress⟩, ⟨_, rfl⟩⟩

/-- A step becomes active with what it has decided. -/
theorem primed_of_decided {document : Document} {step : ResolvedStep} {asked : Log}
    {active : ActiveStep} (resolved : workflow.resolve document = .ok run.workflow)
    (current : run.workflow.steps[run.stepIndex]? = some step)
    (decided :
      step.next (run.contextFor evaluator step) = ⟨asked, .dispatch active⟩) :
    Primed workflow evaluator { run with active := some active } .working
      (log ++ asked) := by
  rintro _ ⟨⟩
  rcases way_of_resolve resolved current (run.contextFor evaluator step) rfl with
    ⟨definition, declared, stepResolves, way⟩
  rw [← stepResolves.index_eq] at declared
  rw [decided] at way
  generalize action : NextAction.dispatch active = value at way
  cases way with
  | settles sound => cases action
  | fails sound fault => cases action
  | idles sound yields => cases action
  | sends sound suited single affirmed =>
      rcases NextAction.dispatch.inj action with rfl
      refine ⟨suited.known, definition, declared, rfl, ?_⟩
      intro guard present
      exact (affirmed guard (suited.guard.trans present)).prepend log
  | loops sound suited looping yields nonempty =>
      rcases NextAction.dispatch.inj action with rfl
      exact ⟨suited.known, definition, declared, suited.guard⟩

theorem Move.primed {document : Document}
    (resolved : workflow.resolve document = .ok run.workflow)
    (moved : Move evaluator run stage acts next later)
    (primed : Primed workflow evaluator run stage log) :
    Primed workflow evaluator next later (log ++ acts) := by
  cases moved with
  | goesOn yields lasting => exact yields.primed primed _
  | stops yields halting => exact .of_free rfl
  | enters free current decided => exact primed_of_decided resolved current decided
  | leaves present finished => exact .of_free rfl
  | sends present ready =>
      cases ready with
      | once fresh => exact primed.of_begun present rfl rfl rfl rfl rfl (.inl rfl)
      | item looping items bound unguarded =>
          exact primed.of_begun present rfl rfl rfl rfl rfl
            (.inr ⟨⟨_, looping⟩, ⟨_, looping⟩⟩)
      | guardedItem looping items bound guarded answered accepted =>
          exact primed.of_begun present rfl rfl rfl rfl rfl
            (.inr ⟨⟨_, looping⟩, ⟨_, looping⟩⟩)
  | completes free done => exact .of_free free
  | @cancels dispatch =>
      intro active present
      rcases primed active present with ⟨known, definition, declared, rest⟩
      refine ⟨known, definition, declared, ?_⟩
      cases progress : active.progress with
      | single dispatched =>
          cases dispatched with
          | true => trivial
          | false =>
              simp only [progress] at rest
              cases rest.1
      | looping loop =>
          simp only [progress] at rest
          exact rest

/-! ## Dispatches -/

/-- What an active step sends is sent under its condition. -/
theorem Ready.guarded {active sender : ActiveStep} {scope : DispatchScope}
    {iteration : Option Iteration}
    (primed : Primed workflow evaluator run .working log)
    (present : run.active = some active)
    (ready : Ready evaluator run active acts sender scope iteration) :
    ∃ definition template,
      (run.send sender scope iteration).2.Guarded workflow run.workflow evaluator
        (log ++ acts) definition template := by
  rcases primed active present with ⟨known, definition, declared, rest⟩
  have sent :
      sender.stepIndex = active.stepIndex ∧ sender.request = active.request ∧
        ∀ guard, definition.sendingGuard active.request = some guard →
          (log ++ acts).Affirmed evaluator
            (queryOf run.workflow.name active.stepIndex .guard guard scope) := by
    cases ready with
    | once fresh =>
        simp only [fresh] at rest
        rw [List.append_nil]
        exact ⟨rfl, rfl, rest.2⟩
    | item looping items bound unguarded =>
        simp only [looping] at rest
        refine ⟨rfl, rfl, ?_⟩
        intro guard equal
        rw [← rest, unguarded] at equal
        cases equal
    | guardedItem looping items bound guarded answered accepted =>
        simp only [looping] at rest
        refine ⟨rfl, rfl, ?_⟩
        intro guard equal
        rw [← rest, guarded] at equal
        rcases Option.some.inj equal with rfl
        exact ⟨log, _, rfl, answered, accepted⟩
  rcases sent with ⟨stepIndex, request, affirmed⟩
  have asked (guard : SourceCondition)
      (equal : definition.sendingGuard active.request = some guard) :
      ∃ typed,
        (log ++ acts).Affirmed evaluator
          (queryOf run.workflow.name sender.stepIndex .guard guard
            ⟨scope.bindings, typed⟩) :=
    ⟨scope.typed, stepIndex ▸ affirmed guard equal⟩
  refine ⟨definition, active.request, ?_, ?_, ?_, asked, ?_⟩
  · show workflow.steps[sender.stepIndex]? = _
    rw [stepIndex]
    exact declared
  · show run.workflow.request? sender.request.name = _
    rw [request]
    exact known
  · show sender.request.prepare _ = _
    rw [request]
    rfl
  · intro other guard equal
    exact asked guard ((StepDefinition.sendingGuard_eq_ownGuard other).trans equal)

/-- Acts that send nothing are under no condition. -/
theorem each_guarded_of_unsent {resolved : ResolvedWorkflow}
    (unsent : acts.dispatches = []) (log : Log) :
    acts.Each fun before =>
      Act.Guarded workflow resolved evaluator (log ++ before) := by
  rintro before act since rfl
  cases act with
  | noted note => trivial
  | recorded result => trivial
  | sent dispatch =>
      rw [Log.dispatches_append] at unsent
      exact (List.append_ne_nil_of_right_ne_nil _ (List.cons_ne_nil _ _)
        unsent).elim

theorem Move.guarded (resolves : run.workflow.Resolves workflow)
    (placed : run.Placed) (moved : Move evaluator run stage acts next later)
    (primed : Primed workflow evaluator run stage log)
    (each : log.Each (Act.Guarded workflow run.workflow evaluator)) :
    Log.Each (Act.Guarded workflow run.workflow evaluator) (log ++ acts) := by
  have silent {unsending : Log} (unsent : unsending.dispatches = []) :
      Log.Each (Act.Guarded workflow run.workflow evaluator) (log ++ unsending) :=
    each.append (each_guarded_of_unsent unsent log)
  cases moved with
  | goesOn yields lasting =>
      exact silent ((yields.leads resolves placed).record _).2.2
  | stops yields halting =>
      exact silent ((yields.leads resolves placed).record _).2.2
  | enters free current decided =>
      have asks := (decides_current resolves current evaluator).2.asks
      rw [decided] at asks
      exact silent asks.dispatches
  | leaves present finished => exact silent rfl
  | sends present ready =>
      rw [← List.append_assoc]
      exact (silent ready.explores.asks.dispatches).concat
        (ready.guarded primed present)
  | completes free done => exact silent rfl
  | cancels => exact silent rfl

end Moves

/-- Wherever moves lead to, every request was sent under its condition. -/
theorem Reaches.guarded {evaluator : Evaluator} {request : RunRequest}
    {first run : Run} {stage : Stage} {log : Log} (begins : Begins request first)
    (reached : Reaches evaluator first .working log run stage) :
    Primed request.workflow evaluator run stage log ∧
      log.Each (Act.Guarded request.workflow run.workflow evaluator) := by
  induction reached with
  | refl => exact ⟨.of_free begins.active, Log.each_nil⟩
  | move reached moved hypothesis =>
      rcases hypothesis with ⟨primed, each⟩
      have resolved := begins.resolved
      rw [← reached.workflow_eq] at resolved
      rw [moved.workflow_eq]
      exact ⟨moved.primed resolved primed,
        moved.guarded (reached.resolves begins) (reached.placed begins) primed
          each⟩

theorem Reaches.allGuarded {evaluator : Evaluator} {request : RunRequest}
    {first run : Run} {stage : Stage} {log : Log} (begins : Begins request first)
    (reached : Reaches evaluator first .working log run stage) :
    Primed request.workflow evaluator run stage log ∧
      ∀ before dispatch since, log = before ++ .sent dispatch :: since →
        ∃ definition template,
          dispatch.Guarded request.workflow run.workflow evaluator before
            definition template := by
  rcases reached.guarded begins with ⟨primed, each⟩
  exact ⟨primed, fun before dispatch => each before (.sent dispatch)⟩

end Run

namespace Engine

/-- Whatever the answers are, the last thing before each dispatch of a play is
that the condition that the request is sent under was evaluated with exactly its
variables, and was true. -/
theorem play_sends_under_guards {engine : Engine} {request : RunRequest}
    {workflow : ResolvedWorkflow} (free : engine.run = none)
    (resolved : request.workflow.resolve request.document = .ok workflow)
    (evaluator : Evaluator) (now : Int) (answers : List (Outcome × Int)) :
    ∃ log directive after,
      engine.play evaluator request now answers = ⟨log, .ok directive, after⟩ ∧
        ∀ before dispatch since, log = before ++ .sent dispatch :: since →
          ∃ definition template,
            dispatch.Guarded request.workflow workflow evaluator before definition
              template := by
  rcases brings_play free resolved evaluator now answers with
    ⟨played, equal, brings⟩
  have begins : Run.Begins request (engine.beginRun request workflow now) :=
    .beginRun resolved now
  rcases brings with ⟨next, dispatch, errors, value, reached⟩ |
      ⟨next, ending, reason, later, errors, value, canceled, reached⟩
  · have all := (reached.allGuarded begins).2
    rw [reached.workflow_eq] at all
    exact ⟨_, _, _, equal, all⟩
  · have all := (reached.allGuarded begins).2
    rw [reached.workflow_eq] at all
    exact ⟨_, _, _, equal, all⟩

end Engine

/-! ### A step with a condition in place of the request's -/

/-- The request has a condition, and so has the step that sends it. -/
def guardedTwice : RunRequest :=
  let request : Request :=
    { name := "user"
      protocol := .http
      method := "GET"
      url := "/users"
      headers := .empty
      body := none
      guard := some "closed"
      loop := none
      options := .inherit
      line := 1 }
  let workflow : WorkflowDefinition :=
    { name := "users"
      description := none
      tags := []
      policy := .stop
      options := .inherit
      bindings := .empty
      steps := [{ StepDefinition.ofKind .request with
        using_ := some "user"
        guard := some "open" }]
      line := 2 }
  ⟨⟨none, .empty, .inherit, [request], [workflow]⟩, workflow, .workflow, .empty⟩

/-- Only one condition is true. -/
def openOnly : Evaluator :=
  fun query => .ok (.data (.bool (query.text = "open")))

theorem play_sends_under_guards_guardedTwice :
    ∃ log directive after,
      Engine.idle.play openOnly guardedTwice 0 [] = ⟨log, .ok directive, after⟩ ∧
        log.dispatches.length = 1 ∧
        ∀ before dispatch since, log = before ++ .sent dispatch :: since →
          ∃ definition template workflow,
            dispatch.Guarded guardedTwice.workflow workflow openOnly before
              definition template := by
  obtain ⟨log, directive, after, played, guarded⟩ :=
    Engine.play_sends_under_guards (rfl : Engine.idle.run = none)
      (rfl : guardedTwice.workflow.resolve guardedTwice.document = .ok _) openOnly
      0 []
  refine ⟨log, directive, after, played, ?_, ?_⟩
  · have same : log = (Engine.idle.play openOnly guardedTwice 0 []).log := by
      rw [played]
    rw [same]
    decide +kernel
  · intro before dispatch since split
    rcases guarded before dispatch since split with ⟨definition, template, guarded⟩
    exact ⟨definition, template, _, guarded⟩

/-- The request's own condition, which is false, is not evaluated before the
request is sent. -/
theorem sent_against_own_guard :
    let log := (Engine.idle.play openOnly guardedTwice 0 []).log
    log.queries.map Query.text = ["open"] ∧
      log.dispatches.map (fun dispatch => dispatch.request.name) = ["user"] ∧
        guardedTwice.document.requests.map Request.guard = [some "closed"] := by
  decide +kernel

end RequestFlow
