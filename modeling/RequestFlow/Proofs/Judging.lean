import RequestFlow.Proofs.Draining
import RequestFlow.Proofs.Guarding
import RequestFlow.Proofs.Persistence

/-!
# Conditions, requests and answers of one scope

The variables of a step are put together anew for its conditions and for each of
its dispatches, the dispatches of a loop change what they are put together from,
and an answer is judged much later.  Main statement: a request is sent over
exactly the variables that the conditions of its step were evaluated with, those
of its loop item in a loop, and what is expected of its answer is filled over the
same ones.
-/

namespace RequestFlow

open Condition

/-! ## One scope -/

/-- The options of a request that a step sends: each is that of the step, else
that of the request, else that of the workflow, else that of the document. -/
def RunRequest.optionsOf (request : RunRequest) (definition : StepDefinition)
    (template : Request) : Options where
  timeout :=
    definition.options.timeout.or (template.options.timeout.or
      (request.workflow.options.timeout.or request.document.options.timeout))
  followRedirects :=
    definition.options.followRedirects.or
      (template.options.followRedirects.or
        (request.workflow.options.followRedirects.or
          request.document.options.followRedirects))

/-- All conditions of a step were evaluated with these variables and without typed
values. -/
def Log.JudgedIn (log : Log) (index : Nat) (bindings : Scope) : Prop :=
  ∀ query ∈ log.queries, query.step = index + 1 →
    query.bindings = bindings ∧ query.typed = .empty

/-- The source of a step's loop was evaluated and has yielded these items. -/
def LoopDefinition.YieldsItems (loop : LoopDefinition) (evaluator : Evaluator)
    (log : Log) (index : Nat) (items : List Value) : Prop :=
  ∃ query ∈ log.queries, query.step = index + 1 ∧ query.role = .loop ∧
    query.text = loop.source ∧ (evaluator query).bind Value.items = .ok items

theorem LoopDefinition.YieldsItems.append {loop : LoopDefinition}
    {evaluator : Evaluator} {log : Log} {index : Nat} {items : List Value}
    (yields : loop.YieldsItems evaluator log index items) (more : Log) :
    loop.YieldsItems evaluator (log ++ more) index items := by
  rcases yields with ⟨query, member, rest⟩
  refine ⟨query, ?_, rest⟩
  rw [Log.queries_append]
  exact List.mem_append_left _ member

/-- A request is sent for an item of its loop: the item's text is bound, the place
of the item is shown, and the condition was true for the variables of the
dispatch, with the loop variable bound to the item itself. -/
structure Dispatch.ForItem (request : RunRequest) (resolved : ResolvedWorkflow)
    (evaluator : Evaluator) (before : Log) (guard? : Option SourceCondition)
    (loop : LoopDefinition) (items : List Value) (index : Nat) (item : Value)
    (dispatch : Dispatch) : Prop where
  source : loop.YieldsItems evaluator before dispatch.stepIndex items
  present : items[index]? = some item
  bound :
    ∃ text, item.text = .ok text ∧
      ∀ key ∈ Scope.loopKeys loop.name request.origin.promotes,
        dispatch.bindings.get? key = some text
  shown : ∃ label branch, dispatch.statusLine =
    RequestFlow.statusLine dispatch.stepIndex resolved.totalSteps
      (fullLabel label branch (some ⟨index + 1, items.length⟩))
  affirmed : ∀ guard, guard? = some guard → before.Affirmed evaluator
    (queryOf resolved.name dispatch.stepIndex .guard guard
      ⟨dispatch.bindings, .ofList [(loop.name, item)]⟩)

/-- A request is sent over the variables that the conditions of its step were
evaluated with. -/
structure Dispatch.InScope (request : RunRequest) (resolved : ResolvedWorkflow)
    (evaluator : Evaluator) (before : Log) (definition : StepDefinition)
    (template : Request) (dispatch : Dispatch) : Prop where
  declared : request.workflow.steps[dispatch.stepIndex]? = some definition
  known : resolved.request? dispatch.request.name = some template
  prepared : dispatch.request = template.prepare dispatch.bindings
  options : dispatch.options = request.optionsOf definition template
  once : definition.sendingLoop template = none →
    before.JudgedIn dispatch.stepIndex dispatch.bindings
  inLoop :
    ∀ loop, definition.sendingLoop template = some loop →
      ∃ items index item,
        dispatch.ForItem request resolved evaluator before
          (definition.sendingGuard template) loop items index item

/-- A result tells how the response was judged by what its step expects, filled
over the variables of the dispatch; and the dispatch is the last act before it. -/
def StepResult.AnswersIn (request : RunRequest) (before : Log)
    (snapshot : Snapshot) (result : StepResult) : Prop :=
  ∃ earlier dispatch definition,
    before = earlier ++ [.sent dispatch] ∧ result.stepIndex = dispatch.stepIndex ∧
      request.workflow.steps[dispatch.stepIndex]? = some definition ∧
      judge snapshot
          (definition.expect.mapValues (Template.fill dispatch.bindings)) .empty =
        ⟨result.status, result.message, result.error⟩

/-- Conditions, requests and answers are of one scope. -/
def Act.Upholds (request : RunRequest) (resolved : ResolvedWorkflow)
    (evaluator : Evaluator) (before : Log) : Act → Prop
  | sent dispatch => ∃ definition template,
      dispatch.InScope request resolved evaluator before definition template
  | recorded result => ∀ snapshot, result.response = some snapshot →
      result.AnswersIn request before snapshot
  | noted _ => True

/-! ## Filled expectations -/

/-- Where nothing has a value a template stays as it is. -/
theorem Template.fill_empty (template : String) :
    Template.fill .empty template = template := by
  have same : Segment.fill .empty = Segment.source := by
    funext segment
    cases segment with
    | literal text => rfl
    | marker inner =>
        have none : Scope.lookup .empty (String.ofList inner) = none := by
          rw [Scope.lookup]
          split <;> rfl
        rw [Segment.fill, none]
        rfl
  rw [fill, same, flatMap_source_segments, String.ofList_toList]

/-- A response is judged alike by what is expected and by that, filled before. -/
theorem judge_filled (snapshot : Snapshot) (expect : Dictionary String)
    (scope : Scope) :
    judge snapshot (expect.mapValues (Template.fill scope)) .empty =
      judge snapshot expect scope := by
  have declared : declaredMismatch? snapshot .empty ∘
      (fun entry : String × String => (entry.1, Template.fill scope entry.2)) =
        declaredMismatch? snapshot scope := by
    funext entry
    simp only [Function.comp_apply, declaredMismatch?, Template.fill_empty]
  have complaint :
      complaint? snapshot (expect.mapValues (Template.fill scope)) .empty =
        complaint? snapshot expect scope := by
    rw [complaint?, complaint?, Dictionary.mapValues, List.findSome?_map, declared]
  rw [judge, judge, complaint]

/-- The options of a resolved workflow are those of the document below its own. -/
theorem options_of_resolve {workflow : WorkflowDefinition} {document : Document}
    {resolved : ResolvedWorkflow}
    (resolves : workflow.resolve document = .ok resolved) :
    resolved.options = document.options.overlay workflow.options := by
  rw [WorkflowDefinition.resolve] at resolves
  split at resolves
  · cases resolves
  · rw [← Except.ok.inj resolves]

/-! ## The active step -/

/-- How the active step goes on: its one dispatch is made, or it stays at its item
or goes to the next one. -/
inductive Progress.GoesTo : Progress → Progress → Prop where
  | once {dispatched : Bool} : GoesTo (.single dispatched) (.single true)
  | stays {walk : Loop} : GoesTo (.looping walk) (.looping walk)
  | walks {walk : Loop} : GoesTo (.looping walk) (.looping walk.advance)

/-- The active step sends its request as it is declared: once, all its conditions
being evaluated with its variables, or for the items that its loop source has
yielded. -/
structure ActiveStep.Equipped (request : RunRequest) (evaluator : Evaluator)
    (run : Run) (stage : Stage) (log : Log) (definition : StepDefinition)
    (active : ActiveStep) : Prop where
  declared : request.workflow.steps[active.stepIndex]? = some definition
  known : run.workflow.request? active.request.name = some active.request
  bindings : active.bindings = definition.bindings
  expect : active.expect = definition.expect
  options : active.options = request.optionsOf definition active.request
  progress :
    match active.progress with
    | .single dispatched =>
        definition.sendingLoop active.request = none ∧
          (dispatched = false →
            stage = .working ∧
              log.JudgedIn active.stepIndex
                (run.scopeFor active.bindings none).bindings)
    | .looping walk =>
        ∃ loop items, definition.sendingLoop active.request = some loop ∧
          walk.name = loop.name ∧
          walk.keys = Scope.loopKeys loop.name request.origin.promotes ∧
          active.guard = definition.sendingGuard active.request ∧
          loop.YieldsItems evaluator log active.stepIndex items ∧
          walk.WalksThrough items

section Decisions

variable {request : RunRequest} {evaluator : Evaluator} {run next : Run}
  {stage later : Stage} {log acts : Log} {definition : StepDefinition}
  {active : ActiveStep}

theorem ActiveStep.Equipped.further {progress : Progress}
    (equipped : active.Equipped request evaluator run stage log definition)
    (goes : active.progress.GoesTo progress)
    (workflow : next.workflow = run.workflow) :
    ({ active with progress := progress }).Equipped request evaluator next later
      (log ++ acts)
      definition := by
  rcases equipped with ⟨declared, known, bindings, expect, options, rest⟩
  refine ⟨declared, ?_, bindings, expect, options, ?_⟩
  · rw [workflow]
    exact known
  · cases before : active.progress with
    | single dispatched =>
        rw [before] at goes rest
        cases goes
        exact ⟨rest.1, nofun⟩
    | looping walk =>
        rw [before] at goes rest
        rcases rest with ⟨loop, items, sending, name, keys, guard, yields, walks⟩
        cases goes with
        | stays =>
            exact ⟨loop, items, sending, name, keys, guard, yields.append acts,
              walks⟩
        | walks =>
            refine ⟨loop, items, sending, ?_, ?_, guard, yields.append acts,
              walks.advance⟩
            · rw [Loop.advance]
              split <;> exact name
            · rw [Loop.advance]
              split <;> exact keys

/-- While its answer is awaited, a step can stay where it is and go on. -/
theorem ActiveStep.Equipped.goesTo {dispatch : Dispatch}
    (equipped :
      active.Equipped request evaluator run (.waiting dispatch) log definition) :
    active.progress.GoesTo active.progress ∧
      active.progress.GoesTo active.progress.advance := by
  have rest := equipped.progress
  cases before : active.progress with
  | looping walk => exact ⟨.stays, .walks⟩
  | single dispatched =>
      rw [before] at rest
      cases dispatched with
      | true => exact ⟨.once, .once⟩
      | false => cases (rest.2 rfl).1

/-- A step that becomes active sends its request as it is declared. -/
theorem Way.equipped {step : ResolvedStep} {asked : Log}
    (resolves : request.workflow.resolve request.document = .ok run.workflow)
    (origin : run.origin = request.origin)
    (fresh : ∀ query ∈ log.queries, query.step ≤ run.stepIndex)
    (current : run.workflow.steps[run.stepIndex]? = some step)
    (decided :
      step.next (run.contextFor evaluator step) = ⟨asked, .dispatch active⟩) :
    ∃ definition,
      active.Equipped request evaluator { run with active := some active } .working
        (log ++ asked) definition := by
  rcases way_of_resolve resolves current (run.contextFor evaluator step) rfl with
    ⟨definition, declared, stepResolves, way⟩
  rcases stepResolves.core_eq with ⟨used, core⟩
  have number : step.core.index = run.stepIndex := stepResolves.index_eq
  have declaredThere :
      request.workflow.steps[step.core.index]? = some definition := by
    rw [number]
    exact declared
  have options (template : Request) :
      (run.workflow.options.overlay template.options).overlay step.core.options =
        request.optionsOf definition template := by
    rw [options_of_resolve resolves, core]
    rfl
  have expect : step.core.expect = definition.expect := by
    rw [core]
    rfl
  have bindings := stepResolves.bindings_eq
  rw [decided] at way
  refine ⟨definition, ?_⟩
  generalize action : NextAction.dispatch active = value at way
  cases way with
  | settles sound => cases action
  | fails sound fault => cases action
  | idles sound yields => cases action
  | @sends asked target sound suited single affirmed =>
      rcases NextAction.dispatch.inj action with rfl
      refine ⟨declaredThere, suited.known, bindings, expect, options _, ?_⟩
      refine ⟨suited.loop.symm.trans single, fun _ => ⟨rfl, ?_⟩⟩
      -- The conditions of the step are those of this decision: all before are of
      -- earlier steps.
      intro query member own
      rw [Log.queries_append] at member
      rcases List.mem_append.mp member with member | member
      · have behind := fresh query member
        rw [own] at behind
        exact (Nat.not_succ_le_self _ (number ▸ behind)).elim
      · rcases sound.mem_queries member with
          ⟨role, condition, value, rfl, other, answered⟩
        exact ⟨rfl, rfl⟩
  | @loops asked target loop items sound suited looping yields nonempty =>
      rcases NextAction.dispatch.inj action with rfl
      refine ⟨declaredThere, suited.known, bindings, expect, options _, ?_⟩
      refine ⟨loop, items, suited.loop.symm.trans looping, rfl, ?_, suited.guard,
        ?_, ?_⟩
      · show Scope.loopKeys loop.name run.origin.promotes = _
        rw [origin]
      · refine ⟨_, ?_, rfl, rfl, rfl, yields⟩
        rw [Log.queries_append, Log.queries_append]
        exact List.mem_append_right _
          (List.mem_append_right _ (List.mem_singleton_self _))
      · exact ⟨rfl, Nat.zero_add _⟩

end Decisions

namespace Run

/-! ## Along a run -/

/-- Conditions, requests and answers of a run are of one scope.  The active step
sends its request as it is declared, and the answer that is awaited is that to the
last act. -/
structure Upholds (request : RunRequest) (evaluator : Evaluator) (run : Run)
    (stage : Stage) (log : Log) : Prop where
  acts : log.Each (Act.Upholds request run.workflow evaluator)
  equipped : ∀ active, run.active = some active →
    ∃ definition, active.Equipped request evaluator run stage log definition
  awaited :
    ∀ dispatch, stage = .waiting dispatch →
      ∃ earlier, log = earlier ++ [.sent dispatch] ∧
        ∀ active inFlight,
          run.active = some active → run.inFlight = some inFlight →
            active.stepIndex = dispatch.stepIndex ∧
              inFlight.bindings = dispatch.bindings

variable {request : RunRequest} {evaluator : Evaluator} {run next : Run}
  {stage later : Stage} {log acts : Log}

/-- Nothing is said of acts that record and send nothing. -/
theorem each_of_quiet (unrecorded : acts.results = [])
    (unsent : acts.dispatches = []) :
    acts.Each fun before =>
      Act.Upholds request run.workflow evaluator (log ++ before) := by
  rintro before act since rfl
  cases act with
  | noted note => trivial
  | recorded result =>
      rw [Log.results_append] at unrecorded
      exact (List.append_ne_nil_of_right_ne_nil _ (List.cons_ne_nil _ _)
        unrecorded).elim
  | sent dispatch =>
      rw [Log.dispatches_append] at unsent
      exact (List.append_ne_nil_of_right_ne_nil _ (List.cons_ne_nil _ _)
        unsent).elim

theorem Upholds.quiet (upholds : Upholds request evaluator run stage log)
    (unrecorded : acts.results = []) (unsent : acts.dispatches = []) :
    (log ++ acts).Each (Act.Upholds request run.workflow evaluator) :=
  upholds.acts.append (each_of_quiet unrecorded unsent)

/-- The answer to a dispatch is judged over its variables. -/
theorem Upholds.answersIn {dispatch : Dispatch} {active : ActiveStep}
    {inFlight : InFlight} {outcome : Outcome} {result : StepResult}
    (upholds : Upholds request evaluator run (.waiting dispatch) log)
    (flying : run.inFlight = some inFlight) (present : run.active = some active)
    (answer : answerOf? active inFlight outcome = some result) :
    Act.Upholds request run.workflow evaluator log (Act.recorded result) := by
  rcases upholds.awaited dispatch rfl with ⟨earlier, last, same⟩
  rcases same active inFlight present flying with ⟨place, bindings⟩
  rcases upholds.equipped active present with ⟨definition, equipped⟩
  intro snapshot answered
  cases outcome with
  | completed snapshot =>
      rcases Option.some.inj answer with rfl
      rcases Option.some.inj answered with rfl
      refine ⟨earlier, dispatch, definition, last, place,
        place ▸ equipped.declared, ?_⟩
      rw [judge_filled, ← bindings, ← equipped.expect]
      rfl
  | skipped reason =>
      rcases Option.some.inj answer with rfl
      cases answered
  | canceled => cases answer

/-- A result with a response is that of an answer. -/
theorem Yields.upholds {result : StepResult} {policy : Policy}
    (resolves : run.workflow.Resolves request.workflow) (placed : run.Placed)
    (yields : Yields evaluator run stage acts result policy next)
    (upholds : Upholds request evaluator run stage log) :
    Log.Each (Act.Upholds request run.workflow evaluator)
      (log ++ (acts ++ [.recorded result])) := by
  have leads := yields.leads resolves placed
  have quiet := upholds.quiet leads.unrecorded leads.unsent
  have unanswered (none : result.response = none) (before : Log) :
      Act.Upholds request run.workflow evaluator before (Act.recorded result) := by
    intro snapshot answered
    cases none.symm.trans answered
  rw [← List.append_assoc]
  refine quiet.concat ?_
  cases yields with
  | @settled step asked result policy free current decided =>
      rcases resolves.declared current with ⟨definition, declared, stepResolves⟩
      have plain :=
        (stepResolves.countsFaults (run.contextFor evaluator step)).plain
      rw [decided] at plain
      exact unanswered plain.1 _
  | passedOver present looping items passed =>
      refine unanswered ?_ _
      cases passed <;> rfl
  | answered flying present answer =>
      rw [List.append_nil]
      exact upholds.answersIn flying present answer

/-- An active step sends its request for an item in the scope of this item. -/
theorem inScope_item {active : ActiveStep} {definition : StepDefinition}
    {walk : Loop} {item : Value} {ahead : List Value} {text : String}
    (equipped : active.Equipped request evaluator run stage log definition)
    (looping : active.progress = .looping walk)
    (items : walk.ahead = item :: ahead) (bound : item.text = .ok text)
    (affirmed : ∀ guard, active.guard = some guard →
        (log ++ acts).Affirmed evaluator
          (run.itemQuery active walk item text guard)) :
    (run.send active (run.itemScope active walk item text)
      (some walk.iteration)).2.InScope request run.workflow evaluator (log ++ acts)
      definition active.request := by
  rcases equipped with ⟨declared, known, bindings, expect, options, rest⟩
  rw [looping] at rest
  rcases rest with ⟨loop, found, sending, name, keys, guard, yields, walks⟩
  refine ⟨declared, known, rfl, options, ?_, ?_⟩
  · intro single
    cases sending.symm.trans single
  · intro other equal
    rcases Option.some.inj (sending.symm.trans equal) with rfl
    refine ⟨found, walk.done, item, yields.append acts, ?_, ⟨text, bound, ?_⟩, ?_,
      ?_⟩
    · rw [← List.head?_drop, ← walks.1, items, List.head?_cons]
    · intro key member
      show (DispatchScope.build run.ambient run.scope active.bindings
        (some ⟨walk.name, walk.keys, text, item⟩)).bindings.get? key = _
      rw [Scope.get?_dispatched, if_pos]
      rw [keys]
      exact member
    · have place : walk.iteration = ⟨walk.done + 1, found.length⟩ := by
        rw [← walks.2, Loop.iteration, Nat.min_eq_left]
        simp [Loop.size, items]
      refine ⟨active.label, active.branch, ?_⟩
      rw [← place]
      rfl
    · intro condition guarded
      have asked := affirmed condition (guard.trans guarded)
      rw [← name]
      exact asked

/-- An active step that is ready sends its request in the scope of its
conditions. -/
theorem Ready.inScope {active sender : ActiveStep} {scope : DispatchScope}
    {iteration : Option Iteration} {definition : StepDefinition}
    (equipped : active.Equipped request evaluator run .working log definition)
    (ready : Ready evaluator run active acts sender scope iteration) :
    (run.send sender scope iteration).2.InScope request run.workflow evaluator
      (log ++ acts) definition active.request := by
  cases ready with
  | once fresh =>
      rcases equipped with ⟨declared, known, bindings, expect, options, rest⟩
      rw [fresh] at rest
      refine ⟨declared, known, rfl, options, ?_, ?_⟩
      · intro single
        rw [List.append_nil]
        exact (rest.2 rfl).2
      · intro loop looping
        cases rest.1.symm.trans looping
  | item looping items bound unguarded =>
      refine inScope_item equipped looping items bound ?_
      intro guard guarded
      cases unguarded.symm.trans guarded
  | guardedItem looping items bound guarded answered accepted =>
      refine inScope_item equipped looping items bound ?_
      intro guard present
      rcases Option.some.inj (guarded.symm.trans present) with rfl
      exact ⟨log, _, rfl, answered, accepted⟩

/-- What is sent leaves the step where it is in its loop, or with its one dispatch
made. -/
theorem Ready.goesTo {active sender : ActiveStep} {scope : DispatchScope}
    {iteration : Option Iteration}
    (ready : Ready evaluator run active acts sender scope iteration) :
    ∃ progress, sender = { active with progress := progress } ∧
      active.progress.GoesTo progress := by
  cases ready with
  | once fresh =>
      refine ⟨_, rfl, ?_⟩
      rw [fresh]
      exact .once
  | item looping items bound unguarded =>
      refine ⟨_, rfl, ?_⟩
      rw [looping]
      exact .stays
  | guardedItem looping items bound guarded answered accepted =>
      refine ⟨_, rfl, ?_⟩
      rw [looping]
      exact .stays

theorem Upholds.of_free
    (each : log.Each (Act.Upholds request run.workflow evaluator))
    (free : run.active = none)
    (unawaited : ∀ dispatch, stage ≠ .waiting dispatch) :
    Upholds request evaluator run stage log := by
  refine ⟨each, ?_, fun dispatch waiting => (unawaited dispatch waiting).elim⟩
  intro active present
  cases free.symm.trans present

/-- An active step that stays or goes on leaves all of one scope. -/
theorem Upholds.of_active {active : ActiveStep} {progress : Progress}
    (upholds : Upholds request evaluator run stage log)
    (workflow : next.workflow = run.workflow)
    (each : Log.Each (Act.Upholds request run.workflow evaluator) (log ++ acts))
    (present : run.active = some active)
    (following : next.active = some { active with progress := progress })
    (goes : active.progress.GoesTo progress)
    (unawaited : ∀ dispatch, later ≠ .waiting dispatch) :
    Upholds request evaluator next later (log ++ acts) := by
  rcases upholds.equipped active present with ⟨definition, equipped⟩
  refine ⟨workflow ▸ each, ?_,
    fun dispatch waiting => (unawaited dispatch waiting).elim⟩
  intro other equal
  rcases Option.some.inj (following.symm.trans equal) with rfl
  exact ⟨definition, equipped.further goes workflow⟩

theorem Move.upholds
    (resolved : request.workflow.resolve request.document = .ok run.workflow)
    (origin : run.origin = request.origin) (placed : run.Placed)
    (fresh :
      run.active = none → stage = .working →
        ∀ query ∈ log.queries, query.step ≤ run.stepIndex)
    (moved : Move evaluator run stage acts next later)
    (upholds : Upholds request evaluator run stage log) :
    Upholds request evaluator next later (log ++ acts) := by
  have resolves := resolves_of_resolve resolved
  have silent : (log ++ []).Each (Act.Upholds request run.workflow evaluator) :=
    upholds.quiet rfl rfl
  cases moved with
  | goesOn yields lasting =>
      have each := yields.upholds resolves placed upholds
      cases yields with
      | settled free current decided =>
          exact .of_free each free fun _ => by rintro ⟨⟩
      | passedOver present looping items passed =>
          refine upholds.of_active rfl each present rfl ?_ fun _ => by rintro ⟨⟩
          rw [looping]
          exact .walks
      | answered flying present answer =>
          rcases upholds.equipped _ present with ⟨definition, equipped⟩
          exact upholds.of_active rfl each present rfl equipped.goesTo.2 fun _ =>
            by rintro ⟨⟩
  | stops yields halting =>
      have each := yields.upholds resolves placed upholds
      refine .of_free ?_ rfl fun _ => by rintro ⟨⟩
      exact each
  | enters free current decided =>
      have asks := (decides_current resolves current evaluator).2.asks
      rw [decided] at asks
      refine ⟨upholds.quiet asks.results asks.dispatches, ?_, ?_⟩
      · rintro _ ⟨⟩
        exact Way.equipped resolved origin (fresh free rfl) current decided
      · rintro dispatch ⟨⟩
  | leaves present finished =>
      refine .of_free ?_ rfl fun _ => by rintro ⟨⟩
      exact silent
  | @sends active sender asked scope iteration present ready =>
      have asks := ready.explores.asks
      rcases upholds.equipped active present with ⟨definition, equipped⟩
      have sent : Act.Upholds request run.workflow evaluator (log ++ asked)
          (.sent (run.send sender scope iteration).2) :=
        ⟨definition, _, ready.inScope equipped⟩
      have each := (upholds.quiet asks.results asks.dispatches).concat sent
      rw [List.append_assoc] at each
      rcases ready.goesTo with ⟨progress, rfl, goes⟩
      refine ⟨each, ?_, ?_⟩
      · rintro _ ⟨⟩
        exact ⟨definition, equipped.further goes rfl⟩
      · rintro _ ⟨⟩
        refine ⟨log ++ asked, (List.append_assoc _ _ _).symm, ?_⟩
        rintro _ _ ⟨⟩ ⟨⟩
        exact ⟨rfl, rfl⟩
  | completes free done => exact .of_free silent free fun _ => by rintro ⟨⟩
  | cancels =>
      cases present : run.active with
      | none => exact .of_free silent present fun _ => by rintro ⟨⟩
      | some active =>
          rcases upholds.equipped active present with ⟨definition, equipped⟩
          exact upholds.of_active rfl silent present present equipped.goesTo.1
            fun _ => by rintro ⟨⟩

/-- Wherever moves lead to, conditions, requests and answers are of one scope. -/
theorem Reaches.upholds {first : Run} (begins : Begins request first)
    (reached : Reaches evaluator first .working log run stage) :
    Upholds request evaluator run stage log := by
  induction reached with
  | refl => exact .of_free Log.each_nil begins.active fun _ => by rintro ⟨⟩
  | move reached moved hypothesis =>
      have resolved := begins.resolved
      rw [← reached.workflow_eq] at resolved
      refine moved.upholds resolved (reached.origin_eq.trans begins.origin)
        (reached.placed begins) ?_ hypothesis
      rintro free rfl
      rcases reached.accounted begins with ⟨shapes, laid⟩
      rw [← laid.length]
      exact (laid.between free).bounded

end Run

namespace Engine

/-- Whatever the calls are that serve a run: a request is sent over exactly the
variables that the conditions of its step were evaluated with, in a loop those of
its item, and what is expected of its answer is filled over the same ones. -/
theorem acts_of_one_scope {engine : Engine} {request : RunRequest}
    {workflow : ResolvedWorkflow} (free : engine.run = none)
    (resolved : request.workflow.resolve request.document = .ok workflow)
    (evaluator : Evaluator) (now : Int) {calls : List Call}
    (alone :
      (engine.serve evaluator (.start request now :: calls)).past.tail.any
          launches = false) :
    (engine.serve evaluator (.start request now :: calls)).log.Each
      (Act.Upholds request workflow evaluator) := by
  have begins : Run.Begins request (engine.beginRun request workflow now) :=
    .beginRun resolved now
  cases serves_run free resolved evaluator now alone with
  | waiting running unreported reached =>
      have acts := (reached.upholds begins).acts
      rw [reached.workflow_eq] at acts
      exact acts
  | finished free reported reached =>
      have acts := (reached.upholds begins).acts
      rw [reached.workflow_eq] at acts
      exact acts

end Engine

/-! ### A step once, and one in a loop -/

/-- A user is asked for by a variable, once under a condition and once for each
user, with options of the document and of a step. -/
def askByName : RunRequest :=
  let request : Request :=
    { name := "user"
      protocol := .http
      method := "GET"
      url := "/\x7b\x7bname\x7d\x7d/\x7b\x7buser\x7d\x7d"
      headers := .empty
      body := none
      guard := some "open"
      loop := none
      options := .inherit
      line := 1 }
  let workflow : WorkflowDefinition :=
    { name := "users"
      description := none
      tags := []
      policy := .goOn
      options := .inherit
      bindings := .ofList [("name", "first")]
      steps :=
        [{ StepDefinition.ofKind .request with
            using_ := some "user"
            bindings := .ofList [("vars.workflow.name", "second")]
            options := ⟨some 7, none⟩ },
          { StepDefinition.ofKind .forEach with
            using_ := some "user"
            expect := .ofList [("status", "\x7b\x7buser\x7d\x7d")]
            loop := some ⟨"users", "user", 3⟩ }]
      line := 2 }
  ⟨⟨none, .empty, ⟨some 5, some true⟩, [request], [workflow]⟩, workflow, .workflow,
    .empty⟩

theorem acts_of_one_scope_askByName :
    let calls : List Call :=
      [.respond ⟨1, 1⟩ (.completed .blank) 1,
        .respond ⟨1, 2⟩ (.completed { Snapshot.blank with status := "TRUE" }) 2]
    let log := (Engine.idle.serve twoUsers (.start askByName 0 :: calls)).log
    (∃ workflow, log.Each (Act.Upholds askByName workflow twoUsers)) ∧
      log.dispatches.map
          (fun dispatch => (dispatch.request.url, dispatch.options)) =
        [("/second/\x7b\x7buser\x7d\x7d", ⟨some 7, some true⟩),
          ("/second/true", ⟨some 5, some true⟩),
          ("/second/false", ⟨some 5, some true⟩)] ∧
      log.results.map StepResult.status = [.succeeded, .succeeded] := by
  intro calls log
  have acts :=
    Engine.acts_of_one_scope (rfl : Engine.idle.run = none)
      (rfl : askByName.workflow.resolve askByName.document = .ok _) twoUsers 0
      (show
        (Engine.idle.serve twoUsers (.start askByName 0 :: calls)).past.tail.any
        launches = false by
        decide +kernel)
  exact ⟨⟨_, acts⟩, by decide +kernel⟩

end RequestFlow
