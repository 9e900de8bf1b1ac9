import RequestFlow.Proofs.Judging
import RequestFlow.Proofs.Layering
import RequestFlow.Proofs.Stopping

/-!
# What steps leave to later steps

A dispatch writes into the variables of the run, and what it is written from holds
ambient variables, those of the step alone and the loop item as well.  Main
statement: only the variables that a step has declared for the run get there, and
only by a dispatch of the step.  Everything else that a later step sees is as it
was when the run began.
-/

namespace RequestFlow

open Condition

/-! ## Keys -/

namespace Scope

/-- What is neither declared by the step nor bound to the item comes from below. -/
theorem get?_build_of_foreign (ambient workflow : Scope) {step : Dictionary String}
    {binding : Option LoopBinding} {key : String}
    (undeclared : key ∉ step.keys.map scopedKey)
    (unbound : ∀ item, binding = some item → key ∉ item.keys) :
    (DispatchScope.build ambient workflow step binding).bindings.get? key =
      (ambient.overlay workflow).get? key := by
  rw [get?_build, declared?_eq_none_iff.mpr undeclared,
    LoopBinding.textAt?_eq_none unbound, Option.none_or, Option.none_or,
    Dictionary.get?_overlay]

/-- A dispatch adds the keys that its step declares for the run. -/
theorem mem_keys_persist {workflow dispatched : Scope} {step : Dictionary String}
    {key : String}
    (binds : ∀ key ∈ step.keys.map scopedKey, key ∈ dispatched.keys) :
    key ∈ (workflow.persist dispatched step).keys ↔
      key ∈ workflow.keys ∨
        (isWorkflowKey key = true ∧ key ∈ step.keys.map scopedKey) := by
  rw [Dictionary.mem_keys_iff, get?_persist]
  split
  · next declares =>
      rcases Dictionary.mem_keys_iff.mp (binds key declares.2) with ⟨value, found⟩
      rw [found, Option.some_or]
      exact ⟨fun _ => .inr declares, fun _ => ⟨value, rfl⟩⟩
  · next undeclared =>
      rw [← Dictionary.mem_keys_iff]
      exact ⟨.inl, fun member => member.resolve_right undeclared⟩

end Scope

/-! ## What dispatches leave -/

/-- The step of one of the dispatches declares a key for the run. -/
def RunRequest.Declares (request : RunRequest) (dispatches : List Dispatch)
    (key : String) : Prop :=
  Scope.isWorkflowKey key = true ∧ ∃ dispatch ∈ dispatches, ∃ definition,
    request.workflow.steps[dispatch.stepIndex]? = some definition ∧
      key ∈ definition.bindings.keys.map Scope.scopedKey

/-- A dispatch has the variables that its step declares. -/
def Dispatch.Binds (request : RunRequest) (dispatch : Dispatch) : Prop :=
  ∀ definition, request.workflow.steps[dispatch.stepIndex]? = some definition →
    ∀ key ∈ definition.bindings.keys.map Scope.scopedKey,
      key ∈ dispatch.bindings.keys

/-- What dispatches leave to a run: all keys are the run's, they are those of the
workflow's variables and those that the steps of the dispatches declare for the
run, and under all but the latter the values are as they began. -/
structure Scope.KeptFrom (request : RunRequest) (dispatches : List Dispatch)
    (scope : Scope) : Prop where
  ofRun : ∀ key ∈ scope.keys, isWorkflowKey key = true
  keys :
    ∀ key,
      key ∈ scope.keys ↔
        key ∈ request.workflow.bindings.keys.map workflowKey ∨
          request.Declares dispatches key
  initial : ∀ key, ¬ request.Declares dispatches key →
    scope.get? key = (Scope.ofWorkflow request.workflow.bindings).get? key

section Kept

variable {request : RunRequest} {dispatches : List Dispatch}

theorem RunRequest.declares_concat {dispatch : Dispatch} {key : String} :
    request.Declares (dispatches ++ [dispatch]) key ↔
      request.Declares dispatches key ∨ request.Declares [dispatch] key := by
  simp only [Declares, List.mem_append, or_and_right, exists_or, and_or_left]

/-- A dispatch of no declared step declares nothing. -/
theorem RunRequest.declares_of_undeclared {dispatch : Dispatch} {key : String}
    (undeclared : request.workflow.steps[dispatch.stepIndex]? = none) :
    request.Declares (dispatches ++ [dispatch]) key ↔
      request.Declares dispatches key := by
  rw [declares_concat, or_iff_left]
  rintro ⟨_, other, member, definition, declared, _⟩
  rcases List.mem_singleton.mp member with rfl
  cases undeclared.symm.trans declared

theorem RunRequest.declares_of_declared {dispatch : Dispatch}
    {definition : StepDefinition} {key : String}
    (declared : request.workflow.steps[dispatch.stepIndex]? = some definition) :
    request.Declares (dispatches ++ [dispatch]) key ↔
      request.Declares dispatches key ∨
        (Scope.isWorkflowKey key = true ∧
          key ∈ definition.bindings.keys.map Scope.scopedKey) := by
  rw [declares_concat]
  simp [Declares, declared]

/-- A dispatch leaves what was left before it, and what its step declares for the
run. -/
theorem Scope.KeptFrom.persist {scope : Scope} {dispatch : Dispatch}
    {definition : StepDefinition} (kept : scope.KeptFrom request dispatches)
    (declared : request.workflow.steps[dispatch.stepIndex]? = some definition)
    (binds : dispatch.Binds request) :
    (scope.persist dispatch.bindings definition.bindings).KeptFrom request
      (dispatches ++ [dispatch]) := by
  refine ⟨?_, ?_, ?_⟩
  · intro key member
    rcases (mem_keys_persist (binds definition declared)).mp member with
      member | ⟨ofRun, _⟩
    · exact kept.ofRun key member
    · exact ofRun
  · intro key
    rw [mem_keys_persist (binds definition declared), kept.keys,
      RunRequest.declares_of_declared declared, or_assoc]
  · intro key undeclared
    rw [RunRequest.declares_of_declared declared, not_or] at undeclared
    rw [get?_persist, if_neg undeclared.2]
    exact kept.initial key undeclared.1

/-- What the run begins with. -/
theorem Scope.keptFrom_ofWorkflow :
    (Scope.ofWorkflow request.workflow.bindings).KeptFrom request [] := by
  refine ⟨fun key => isWorkflowKey_of_mem_ofWorkflow, ?_, fun _ _ => rfl⟩
  intro key
  rw [or_iff_left]
  · exact mem_keys_ofWorkflow
  · rintro ⟨_, dispatch, member, _⟩
    exact List.not_mem_nil member

/-- What dispatches leave to a run, if they have the variables that their steps
declare. -/
theorem keptFrom_scopeAfter
    (binds : ∀ dispatch ∈ dispatches, dispatch.Binds request) :
    (request.scopeAfter dispatches).KeptFrom request dispatches := by
  induction dispatches using List.reverseRecOn with
  | nil => exact Scope.keptFrom_ofWorkflow
  | append_singleton dispatches dispatch hypothesis =>
      have kept :=
        hypothesis fun other member => binds other (List.mem_append_left _ member)
      cases declared : request.workflow.steps[dispatch.stepIndex]? with
      | none =>
          rw [RunRequest.scopeAfter_concat_of_undeclared declared]
          refine ⟨kept.ofRun, ?_, ?_⟩
          · intro key
            rw [RunRequest.declares_of_undeclared declared]
            exact kept.keys key
          · intro key undeclared
            rw [RunRequest.declares_of_undeclared declared] at undeclared
            exact kept.initial key undeclared
      | some definition =>
          rw [RunRequest.scopeAfter_concat declared]
          exact kept.persist declared
            (binds dispatch (List.mem_append_right _ (List.mem_singleton_self _)))

end Kept

/-! ## What a step sees -/

/-- A step sees ambient variables, what the dispatches so far have left to the
run, its own variables and the item of its own loop; all else is as it was when
the run began. -/
structure RunRequest.Sees (request : RunRequest) (resolved : ResolvedWorkflow)
    (dispatches : List Dispatch) (index : Nat) (scope : DispatchScope)
    (definition : StepDefinition) (binding : Option LoopBinding) : Prop where
  declared : request.workflow.steps[index]? = some definition
  built :
    scope =
      .build request.ambient (request.scopeAfter dispatches) definition.bindings
        binding
  own :
    ∀ item, binding = some item →
      ∃ name template loop, resolved.request? name = some template ∧
        definition.sendingLoop template = some loop ∧ item.name = loop.name ∧
        item.keys = Scope.loopKeys loop.name request.origin.promotes
  initial :
    ∀ key, key ∉ definition.bindings.keys.map Scope.scopedKey →
      (∀ item, binding = some item → key ∉ item.keys) →
      ¬ request.Declares dispatches key →
      scope.bindings.get? key =
        (request.ambient.overlay (Scope.ofWorkflow request.workflow.bindings)).get?
          key
  /-- Under keys that are not the run's there are only ambient values. -/
  foreign :
    ∀ key, key ∉ definition.bindings.keys.map Scope.scopedKey →
      (∀ item, binding = some item → key ∉ item.keys) →
      Scope.isWorkflowKey key = false →
      scope.bindings.get? key = request.ambient.get? key

/-- Conditions are evaluated and requests sent with what their step sees after
these dispatches. -/
def Act.Isolated (request : RunRequest) (resolved : ResolvedWorkflow)
    (dispatches : List Dispatch) : Act → Prop
  | noted (.asked query) =>
      ∃ index definition binding, query.step = index + 1 ∧
        request.Sees resolved dispatches index ⟨query.bindings, query.typed⟩
          definition binding
  | sent dispatch =>
      ∃ scope definition binding, dispatch.bindings = scope.bindings ∧
        request.Sees resolved dispatches dispatch.stepIndex scope definition
          binding
  | _ => True

section Sees

variable {request : RunRequest} {resolved : ResolvedWorkflow}
  {dispatches : List Dispatch} {index : Nat} {definition : StepDefinition}
  {binding : Option LoopBinding}

theorem sees_build
    (kept : (request.scopeAfter dispatches).KeptFrom request dispatches)
    (declared : request.workflow.steps[index]? = some definition)
    (own : ∀ item, binding = some item →
        ∃ name template loop, resolved.request? name = some template ∧
          definition.sendingLoop template = some loop ∧ item.name = loop.name ∧
          item.keys = Scope.loopKeys loop.name request.origin.promotes) :
    request.Sees resolved dispatches index
      (.build request.ambient (request.scopeAfter dispatches) definition.bindings
        binding) definition binding := by
  refine ⟨declared, rfl, own, ?_, ?_⟩
  · intro key undeclared unbound unkept
    rw [Scope.get?_build_of_foreign _ _ undeclared unbound,
      Dictionary.get?_overlay, Dictionary.get?_overlay, kept.initial key unkept]
  · intro key undeclared unbound foreign
    have absent : key ∉ (request.scopeAfter dispatches).keys := by
      intro member
      rw [kept.ofRun key member] at foreign
      cases foreign
    rw [Scope.get?_build_of_foreign _ _ undeclared unbound,
      Dictionary.get?_overlay, Dictionary.get?_of_not_mem_keys absent,
      Option.none_or]

/-- A dispatch that is sent with what its step sees has the variables that the
step declares. -/
theorem binds_of_each {log : Log}
    (each :
      log.Each fun before => Act.Isolated request resolved before.dispatches) :
    ∀ dispatch ∈ log.dispatches, dispatch.Binds request := by
  intro dispatch member definition declared key declares
  rcases List.mem_filterMap.mp member with ⟨act, there, equal⟩
  cases act with
  | noted note => cases equal
  | recorded result => cases equal
  | sent other =>
      rcases Option.some.inj equal with rfl
      rcases List.append_of_mem there with ⟨before, since, split⟩
      rcases each before _ since split with
        ⟨scope, stated, binding, bindings, sees⟩
      rcases Option.some.inj (sees.declared.symm.trans declared) with rfl
      rw [bindings, sees.built]
      exact Scope.mem_keys_build_iff.mpr (.inr (.inl declares))

end Sees

namespace Run

/-! ## Along a run -/

variable {request : RunRequest} {evaluator : Evaluator} {run next : Run}
  {stage later : Stage} {log acts : Log}

/-- Acts that send nothing are made after the dispatches so far. -/
theorem each_of_unsent {holds : List Dispatch → Act → Prop}
    (unsent : acts.dispatches = [])
    (all : ∀ act ∈ acts, holds log.dispatches act) :
    acts.Each fun before => holds (log ++ before).dispatches := by
  rintro before act since rfl
  have none : Log.dispatches before = [] := by
    rw [Log.dispatches_append] at unsent
    exact (List.append_eq_nil_iff.mp unsent).1
  rw [Log.dispatches_append, none, List.append_nil]
  exact all act (List.mem_append_right _ List.mem_cons_self)

/-- An active step sees what its run has at hand. -/
theorem Ruled.sees {active : ActiveStep} {definition : StepDefinition}
    {binding : Option LoopBinding} (ruled : Ruled request evaluator run log)
    (kept : (request.scopeAfter log.dispatches).KeptFrom request log.dispatches)
    (equipped : active.Equipped request evaluator run stage log definition)
    (own : ∀ item, binding = some item →
        ∃ name template loop, run.workflow.request? name = some template ∧
          definition.sendingLoop template = some loop ∧ item.name = loop.name ∧
          item.keys = Scope.loopKeys loop.name request.origin.promotes) :
    request.Sees run.workflow log.dispatches active.stepIndex
      (run.scopeFor active.bindings binding) definition binding := by
  rw [scopeFor, ruled.ambient, ruled.scope, equipped.bindings]
  exact sees_build kept equipped.declared own

theorem Ruled.sees_item {active : ActiveStep} {definition : StepDefinition}
    {walk : Loop} (ruled : Ruled request evaluator run log)
    (kept : (request.scopeAfter log.dispatches).KeptFrom request log.dispatches)
    (equipped : active.Equipped request evaluator run stage log definition)
    (looping : active.progress = .looping walk) (item : Value) (text : String) :
    request.Sees run.workflow log.dispatches active.stepIndex
      (run.itemScope active walk item text) definition
      (some ⟨walk.name, walk.keys, text, item⟩) := by
  have rest := equipped.progress
  rw [looping] at rest
  rcases rest with ⟨loop, items, sending, name, keys, _⟩
  refine ruled.sees kept equipped ?_
  rintro _ ⟨⟩
  exact ⟨_, _, loop, equipped.known, sending, name, keys⟩

theorem isolated_raiseErrorOf {resolved : ResolvedWorkflow}
    {dispatches : List Dispatch} (result : StepResult) :
    ∀ act ∈ (raiseErrorOf result).log,
      Act.Isolated request resolved dispatches act := by
  rw [raiseErrorOf]
  split
  · intro act member
    exact (List.not_mem_nil member).elim
  · intro act member
    rcases List.mem_singleton.mp member with rfl
    trivial

/-- The conditions of a step that decides are evaluated with what it sees. -/
theorem Ruled.isolated_decision {step : ResolvedStep}
    (resolved : request.workflow.resolve request.document = .ok run.workflow)
    (ruled : Ruled request evaluator run log)
    (kept : (request.scopeAfter log.dispatches).KeptFrom request log.dispatches)
    (current : run.workflow.steps[run.stepIndex]? = some step) :
    ∀ act ∈ (step.next (run.contextFor evaluator step)).log,
      Act.Isolated request run.workflow log.dispatches act := by
  rcases way_of_resolve resolved current (run.contextFor evaluator step) rfl with
    ⟨definition, declared, stepResolves, way⟩
  intro act member
  rcases way.mem_asked act member with ⟨role, condition, rfl⟩
  refine ⟨run.stepIndex, definition, none, congrArg (· + 1) stepResolves.index_eq,
    ?_⟩
  show request.Sees run.workflow log.dispatches run.stepIndex
    (run.scopeFor step.core.bindings none) definition none
  rw [scopeFor, ruled.ambient, ruled.scope, stepResolves.bindings_eq]
  exact sees_build kept declared nofun

theorem PassesOver.isolated {active : ActiveStep} {definition : StepDefinition}
    {walk : Loop} {item : Value} {asked : Log} {result : StepResult}
    (ruled : Ruled request evaluator run log)
    (kept : (request.scopeAfter log.dispatches).KeptFrom request log.dispatches)
    (equipped : active.Equipped request evaluator run stage log definition)
    (looping : active.progress = .looping walk)
    (passed : PassesOver evaluator run active walk item asked result) :
    ∀ act ∈ asked, Act.Isolated request run.workflow log.dispatches act := by
  have sees := ruled.sees_item kept equipped looping item
  intro act member
  cases passed with
  | unbound unbound => exact (List.not_mem_nil member).elim
  | refused bound guarded answered refused =>
      rcases List.mem_singleton.mp member with rfl
      exact ⟨_, definition, _, rfl, sees _⟩
  | faulty bound guarded failed =>
      rcases List.mem_singleton.mp member with rfl
      exact ⟨_, definition, _, rfl, sees _⟩

/-- What leads to a result is evaluated with what its step sees. -/
theorem Yields.isolated {result : StepResult} {policy : Policy}
    (resolved : request.workflow.resolve request.document = .ok run.workflow)
    (ruled : Ruled request evaluator run log)
    (kept : (request.scopeAfter log.dispatches).KeptFrom request log.dispatches)
    (upholds : Upholds request evaluator run stage log)
    (yields : Yields evaluator run stage acts result policy next) :
    ∀ act ∈ acts ++ [.recorded result],
      Act.Isolated request run.workflow log.dispatches act := by
  have recorded {asked : Log}
      (isolated :
        ∀ act ∈ asked, Act.Isolated request run.workflow log.dispatches act) :
      ∀ act ∈ asked ++ (raiseErrorOf result).log ++ [.recorded result],
        Act.Isolated request run.workflow log.dispatches act := by
    intro act member
    rw [List.append_assoc] at member
    rcases List.mem_append.mp member with member | member
    · exact isolated act member
    · rcases List.mem_append.mp member with member | member
      · exact isolated_raiseErrorOf result act member
      · rcases List.mem_singleton.mp member with rfl
        trivial
  cases yields with
  | settled free current decided =>
      have isolated := ruled.isolated_decision resolved kept current
      rw [decided] at isolated
      exact recorded isolated
  | passedOver present looping items passed =>
      rcases upholds.equipped _ present with ⟨definition, equipped⟩
      exact recorded (passed.isolated ruled kept equipped looping)
  | answered flying present answer =>
      intro act member
      rcases List.mem_singleton.mp member with rfl
      trivial

/-- What is sent is sent with what its step sees. -/
theorem Ready.isolated {active sender : ActiveStep} {scope : DispatchScope}
    {iteration : Option Iteration} {definition : StepDefinition}
    (ruled : Ruled request evaluator run log)
    (kept : (request.scopeAfter log.dispatches).KeptFrom request log.dispatches)
    (equipped : active.Equipped request evaluator run stage log definition)
    (ready : Ready evaluator run active acts sender scope iteration) :
    ∀ act ∈ acts ++ [.sent (run.send sender scope iteration).2],
      Act.Isolated request run.workflow log.dispatches act := by
  cases ready with
  | once fresh =>
      intro act member
      rcases List.mem_singleton.mp member with rfl
      exact ⟨_, definition, none, rfl, ruled.sees kept equipped nofun⟩
  | item looping items bound unguarded =>
      intro act member
      rcases List.mem_singleton.mp member with rfl
      exact ⟨_, definition, _, rfl, ruled.sees_item kept equipped looping _ _⟩
  | guardedItem looping items bound guarded answered accepted =>
      have sees := ruled.sees_item kept equipped looping
      intro act member
      rcases List.mem_pair.mp member with rfl | rfl
      · exact ⟨_, definition, _, rfl, sees _ _⟩
      · exact ⟨_, definition, _, rfl, sees _ _⟩

/-- Every condition was evaluated and every request sent with what its step saw. -/
abbrev AllIsolated (request : RunRequest) (resolved : ResolvedWorkflow)
    (log : Log) : Prop :=
  log.Each fun before => Act.Isolated request resolved before.dispatches

theorem Move.isolated
    (resolved : request.workflow.resolve request.document = .ok run.workflow)
    (placed : run.Placed) (concluded : Concluded request evaluator run log stage)
    (upholds : Upholds request evaluator run stage log)
    (moved : Move evaluator run stage acts next later)
    (each : AllIsolated request run.workflow log) :
    AllIsolated request run.workflow (log ++ acts) := by
  have resolves := resolves_of_resolve resolved
  -- What the dispatches so far leave follows from what each of them was sent with.
  have kept := keptFrom_scopeAfter (binds_of_each each)
  have silent : AllIsolated request run.workflow (log ++ []) := by
    rw [List.append_nil]
    exact each
  cases moved with
  | goesOn yields lasting =>
      exact each.append
        (each_of_unsent ((yields.leads resolves placed).record _).2.2
          (yields.isolated resolved (concluded.ruled yields) kept upholds))
  | stops yields halting =>
      exact each.append
        (each_of_unsent ((yields.leads resolves placed).record _).2.2
          (yields.isolated resolved (concluded.ruled yields) kept upholds))
  | enters free current decided =>
      have asks := (decides_current resolves current evaluator).2.asks
      have isolated := Ruled.isolated_decision resolved concluded kept current
      rw [decided] at asks isolated
      exact each.append (each_of_unsent asks.dispatches isolated)
  | leaves present finished => exact silent
  | @sends active sender asked scope iteration present ready =>
      rcases upholds.equipped _ present with ⟨definition, equipped⟩
      have isolated := ready.isolated concluded kept equipped
      have unsent := ready.explores.asks.dispatches
      have before : AllIsolated request run.workflow (log ++ asked) :=
        each.append (each_of_unsent unsent fun act member =>
          isolated act (List.mem_append_left _ member))
      have same : Log.dispatches (log ++ asked) = log.dispatches := by
        rw [Log.dispatches_append, unsent, List.append_nil]
      rw [← List.append_assoc]
      refine before.concat ?_
      rw [same]
      exact isolated _ (List.mem_append_right _ (List.mem_singleton_self _))
  | completes free done => exact silent
  | cancels => exact silent

/-- A run that is shut off from what its steps have not declared for it. -/
structure Isolates (request : RunRequest) (log : Log) (run : Run) : Prop where
  ambient : run.ambient = request.ambient
  /-- The variables of the run are made by the dispatches alone. -/
  scope : run.scope = request.scopeAfter log.dispatches
  kept : run.scope.KeptFrom request log.dispatches
  acts : AllIsolated request run.workflow log

/-- A move changes the variables of the run only by a dispatch. -/
theorem Move.scope_eq (resolves : run.workflow.Resolves request.workflow)
    (placed : run.Placed) (moved : Move evaluator run stage acts next later)
    (concluded : Concluded request evaluator run log stage) :
    next.ambient = request.ambient ∧
      next.scope = request.scopeAfter (log ++ acts).dispatches := by
  have after := moved.concluded resolves placed concluded
  cases moved with
  | goesOn yields lasting => exact ⟨Ruled.ambient after, Ruled.scope after⟩
  | stops yields halting =>
      have ruled := concluded.ruled yields
      rw [Log.dispatches_append, ((yields.leads resolves placed).record _).2.2,
        List.append_nil]
      exact ⟨ruled.ambient, ruled.scope⟩
  | enters free current decided => exact ⟨Ruled.ambient after, Ruled.scope after⟩
  | leaves present finished => exact ⟨Ruled.ambient after, Ruled.scope after⟩
  | sends present ready => exact ⟨Ruled.ambient after, Ruled.scope after⟩
  | completes free done =>
      rw [List.append_nil]
      exact ⟨Ruled.ambient concluded, Ruled.scope concluded⟩
  | cancels =>
      rw [List.append_nil]
      exact ⟨Ruled.ambient concluded, Ruled.scope concluded⟩

/-- Wherever moves lead to, the run is shut off from what its steps have not
declared for it. -/
theorem Reaches.isolates {first : Run} (begins : Begins request first)
    (reached : Reaches evaluator first .working log run stage) :
    run.Isolates request log := by
  induction reached with
  | refl =>
      have scope : first.scope = request.scopeAfter [] := by
        rw [begins.scope, begins.resolves.bindings]
        rfl
      refine ⟨begins.ambient, scope, ?_, Log.each_nil⟩
      rw [scope]
      exact keptFrom_scopeAfter fun dispatch member =>
        (List.not_mem_nil member).elim
  | move reached moved hypothesis =>
      have resolved := begins.resolved
      rw [← reached.workflow_eq] at resolved
      have placed := reached.placed begins
      have concluded := reached.concluded begins
      have acts :=
        moved.isolated resolved placed concluded (reached.upholds begins)
          hypothesis.acts
      rcases moved.scope_eq (reached.resolves begins) placed concluded with
        ⟨ambient, scope⟩
      refine ⟨ambient, scope, ?_, ?_⟩
      · rw [scope]
        exact keptFrom_scopeAfter (binds_of_each acts)
      · rw [moved.workflow_eq]
        exact acts

end Run

namespace Engine

/-- Whatever the calls are that serve a run, they bring it to a state that it
reaches by its moves.  In every such state its ambient variables are those it
began with, its own are those of the workflow and those that the steps with a
dispatch have declared for the run, and no step has seen anything else of the
steps before it.  Moves without a dispatch leave its variables unchanged. -/
theorem isolates_serve {engine : Engine} {request : RunRequest}
    {workflow : ResolvedWorkflow} (free : engine.run = none)
    (resolved : request.workflow.resolve request.document = .ok workflow)
    (evaluator : Evaluator) (now : Int) {calls : List Call}
    (alone :
      (engine.serve evaluator (.start request now :: calls)).past.tail.any
          launches = false) :
    let service := engine.serve evaluator (.start request now :: calls)
    let first := engine.beginRun request workflow now
    (∃ run stage, Run.Reaches evaluator first .working service.log run stage ∧
      ∀ other, service.engine.run = some other → other = run) ∧
    (∀ log run stage, Run.Reaches evaluator first .working log run stage →
      run.Isolates request log) ∧
    ∀ log run stage acts next later,
      Run.Reaches evaluator first .working log run stage →
        Run.Reaches evaluator run stage acts next later → acts.dispatches = [] →
        next.scope = run.scope := by
  intro service first
  have begins : Run.Begins request first := .beginRun resolved now
  refine ⟨?_, ?_, ?_⟩
  · cases serves_run free resolved evaluator now alone with
    | @waiting run dispatch running unreported reached =>
        refine ⟨run, _, reached, ?_⟩
        intro other present
        exact Option.some.inj (present.symm.trans running)
    | finished gone reported reached =>
        refine ⟨_, _, reached, ?_⟩
        intro other present
        cases gone.symm.trans present
  · intro log run stage reached
    exact reached.isolates begins
  · intro log run stage acts next later reached further unsent
    have before := (reached.isolates begins).scope
    have after := ((reached.trans further).isolates begins).scope
    rw [Log.dispatches_append, unsent, List.append_nil] at after
    exact after.trans before.symm

end Engine

/-! ### A variable of the run and one of the request -/

/-- The first step declares a variable for the run and one for its request; the
second goes through users and declares nothing. -/
def declareThenVisit : RunRequest :=
  userWorkflow
    [{ StepDefinition.ofKind .request with
        using_ := some "user"
        bindings := .ofList [("vars.workflow.token", "t"), ("page", "1")] },
      { StepDefinition.ofKind .forEach with
        using_ := some "user"
        loop := some ⟨"users", "user", 3⟩ }]

theorem isolates_serve_declareThenVisit :
    let calls : List Call :=
      [.respond ⟨1, 1⟩ (.completed .blank) 1,
        .respond ⟨1, 2⟩ (.completed .blank) 2]
    let service := Engine.idle.serve twoUsers (.start declareThenVisit 0 :: calls)
    (∃ run, run.Isolates declareThenVisit service.log ∧
        ∀ other, service.engine.run = some other → other = run) ∧
      service.log.dispatches.map (fun dispatch => dispatch.bindings.keys) =
        [["vars.workflow.token", "vars.request.page"],
          ["vars.workflow.token", "vars.request.user", "vars.workflow.user"],
          ["vars.workflow.token", "vars.request.user", "vars.workflow.user"]] ∧
      service.engine.run.map (fun run => run.scope.entries) =
        some [("vars.workflow.token", "t")] := by
  intro calls service
  have isolates :=
    Engine.isolates_serve (rfl : Engine.idle.run = none)
      (rfl : declareThenVisit.workflow.resolve declareThenVisit.document = .ok _)
      twoUsers 0
      (show
        (Engine.idle.serve twoUsers
          (.start declareThenVisit 0 :: calls)).past.tail.any launches = false by
        decide +kernel)
  rcases isolates with ⟨⟨run, stage, reached, same⟩, each, silent⟩
  exact ⟨⟨run, each _ run stage reached, same⟩, by decide +kernel⟩

end RequestFlow
