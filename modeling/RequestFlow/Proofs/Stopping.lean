import RequestFlow.Proofs.Blocks
import RequestFlow.Proofs.Governing

/-!
# Failures end a run by their policy

A failure ends the run at once if the policy that governs it says so, and nothing
else does.  Main statement: a play stops exactly at its first failure under such a
policy, with nothing evaluated and nothing sent after it, and the report says so;
otherwise every step leaves its results, and the report counts the failures.
-/

namespace RequestFlow

open Condition

/-! ## The policy that governs a result -/

namespace RunRequest

variable (request : RunRequest) (evaluator : Evaluator)

/-- The variables of the run after dispatches: each of them keeps what its step
has declared. -/
def scopeAfter (dispatches : List Dispatch) : Scope :=
  dispatches.foldl
    (fun scope dispatch =>
      match request.workflow.steps[dispatch.stepIndex]? with
      | none => scope
      | some definition => scope.persist dispatch.bindings definition.bindings)
    (Scope.ofWorkflow request.workflow.bindings)

/-- What the evaluator says to a condition of a step, the dispatches of the steps
before it being made. -/
def answer (dispatches : List Dispatch) (index : Nat) (definition : StepDefinition)
    (role : Role) (condition : SourceCondition) : Except ValueError Value :=
  let earlier := dispatches.filter fun dispatch => dispatch.stepIndex < index
  evaluator (queryOf request.workflow.name index role condition
    (.build request.ambient (request.scopeAfter earlier) definition.bindings none))

/-- The policy that governs the results of a step. -/
def governing (log : Log) (index : Nat) : Policy :=
  match request.workflow.steps[index]? with
  | none => request.workflow.policy
  | some definition =>
      definition.governing
        (request.answer evaluator log.dispatches index definition) request.workflow

/-- A result is a failure whose policy ends the run. -/
def halts (log : Log) (result : StepResult) : Bool :=
  result.isFailure && (request.governing evaluator log result.stepIndex).halts

variable {request evaluator}

/-- What one more dispatch leaves. -/
theorem scopeAfter_concat {dispatches : List Dispatch} {dispatch : Dispatch}
    {definition : StepDefinition}
    (declared : request.workflow.steps[dispatch.stepIndex]? = some definition) :
    request.scopeAfter (dispatches ++ [dispatch]) =
      (request.scopeAfter dispatches).persist dispatch.bindings
        definition.bindings := by
  rw [scopeAfter, List.foldl_append, List.foldl_cons, List.foldl_nil, declared]
  rfl

theorem scopeAfter_concat_of_undeclared {dispatches : List Dispatch}
    {dispatch : Dispatch}
    (undeclared : request.workflow.steps[dispatch.stepIndex]? = none) :
    request.scopeAfter (dispatches ++ [dispatch]) =
      request.scopeAfter dispatches := by
  rw [scopeAfter, List.foldl_append, List.foldl_cons, List.foldl_nil, undeclared]
  rfl

/-- What a step sends does not change the policy that governs it, nor that of the
steps before it. -/
theorem governing_append {log more : Log} {index : Nat}
    (later : ∀ dispatch ∈ more.dispatches, index ≤ dispatch.stepIndex) :
    request.governing evaluator (log ++ more) index =
      request.governing evaluator log index := by
  have none :
      (more.dispatches.filter fun dispatch => dispatch.stepIndex < index) =
        [] := by
    apply List.filter_eq_nil_iff.mpr
    intro dispatch member less
    exact Nat.not_lt_of_le (later dispatch member) (of_decide_eq_true less)
  have same : request.answer evaluator (log ++ more).dispatches index =
      request.answer evaluator log.dispatches index := by
    unfold answer
    rw [Log.dispatches_append, List.filter_append, none, List.append_nil]
  unfold governing
  rw [same]

/-- Whether a result halts is decided by the dispatches before it. -/
theorem halts_append {log more : Log} {result : StepResult}
    (later : ∀ dispatch ∈ more.dispatches, result.stepIndex ≤ dispatch.stepIndex) :
    request.halts evaluator (log ++ more) result =
      request.halts evaluator log result := by
  unfold halts
  rw [governing_append later]

end RunRequest

/-! ## The policies of a run -/

namespace Run

/-- A run under its policies: its variables are those that its dispatches have
left, its active step is under the policy that governs it, and no failure so far
has ended it. -/
structure Ruled (request : RunRequest) (evaluator : Evaluator) (run : Run)
    (log : Log) : Prop where
  ambient : run.ambient = request.ambient
  scope : run.scope = request.scopeAfter log.dispatches
  sent : ∀ dispatch ∈ log.dispatches, dispatch.stepIndex ≤ run.stepIndex
  left :
    run.active = none →
      ∀ dispatch ∈ log.dispatches, dispatch.stepIndex < run.stepIndex
  policy : ∀ active, run.active = some active →
    active.policy = request.governing evaluator log run.stepIndex
  going : ∀ result ∈ log.results,
    result.stepIndex ≤ run.stepIndex ∧ request.halts evaluator log result = false

/-- The decision of the current step is under the policy that governs it. -/
theorem Ruled.decided {request : RunRequest} {evaluator : Evaluator} {run : Run}
    {log : Log} (ruled : Ruled request evaluator run log)
    (resolves : run.workflow.Resolves request.workflow) (free : run.active = none)
    {step : ResolvedStep}
    (current : run.workflow.steps[run.stepIndex]? = some step) :
    (step.next (run.contextFor evaluator step)).value.policy =
      request.governing evaluator log run.stepIndex := by
  rcases resolves.declared current with ⟨definition, declared, stepResolves⟩
  have earlier :
      (log.dispatches.filter fun dispatch => dispatch.stepIndex < run.stepIndex) =
        log.dispatches := by
    apply List.filter_eq_self.mpr
    intro dispatch member
    exact decide_eq_true (ruled.left free dispatch member)
  have asks (role : Role) (condition : SourceCondition) :
      ((run.contextFor evaluator step).ask step.core role condition).value =
        request.answer evaluator log.dispatches run.stepIndex definition role
          condition := by
    rw [RunRequest.answer]
    simp only [earlier, ← ruled.scope, ← ruled.ambient, ← resolves.name,
      ← stepResolves.bindings_eq]
    rw [← stepResolves.index_eq]
    rfl
  rw [stepResolves.governed (run.contextFor evaluator step) asks]
  rw [RunRequest.governing, declared]

/-- A response that fails is said to have failed for a reason. -/
theorem message_of_judge {snapshot : Snapshot} {expect : Dictionary String}
    {scope : Scope} (failed : (judge snapshot expect scope).status = .failed) :
    (judge snapshot expect scope).message.isSome := by
  rw [judge] at failed ⊢
  split
  · rfl
  · split
    · rfl
    · next absent _ none =>
        simp only [absent, none] at failed
        cases failed

/-- What a result of a run is judged by. -/
structure Judged (request : RunRequest) (evaluator : Evaluator) (log : Log)
    (index : Nat) (result : StepResult) (policy : Policy) : Prop where
  stepIndex : result.stepIndex = index
  policy : policy = request.governing evaluator log index
  message : result.isFailure = true → result.message.isSome

/-- A result is judged by the policy of the active step, however the step came to
it. -/
theorem judged_of_answer {request : RunRequest} {evaluator : Evaluator} {log : Log}
    {index : Nat} {active : ActiveStep} {inFlight : InFlight} {outcome : Outcome}
    {result : StepResult} (stepIndex : active.stepIndex = index)
    (policy : active.policy = request.governing evaluator log index)
    (answer : answerOf? active inFlight outcome = some result) :
    Judged request evaluator log index result active.policy := by
  cases outcome with
  | completed snapshot =>
      rcases Option.some.inj answer with rfl
      refine ⟨stepIndex, policy, ?_⟩
      intro failure
      exact message_of_judge (beq_iff_eq.mp failure)
  | skipped reason =>
      rcases Option.some.inj answer with rfl
      exact ⟨stepIndex, policy, nofun⟩
  | canceled => cases answer

theorem judged_of_passesOver {request : RunRequest} {evaluator : Evaluator}
    {run : Run} {log asked : Log} {index : Nat} {active : ActiveStep} {loop : Loop}
    {item : Value} {result : StepResult} (stepIndex : active.stepIndex = index)
    (policy : active.policy = request.governing evaluator log index)
    (passed : PassesOver evaluator run active loop item asked result) :
    Judged request evaluator log index result active.policy := by
  cases passed <;> exact ⟨stepIndex, policy, fun _ => rfl⟩

/-- A result is under the policy that governs it, and a failure says why. -/
theorem Yields.judged {request : RunRequest} {evaluator : Evaluator}
    {run next : Run} {stage : Stage} {log acts : Log} {result : StepResult}
    {policy : Policy} (resolves : run.workflow.Resolves request.workflow)
    (placed : run.Placed) (ruled : Ruled request evaluator run log)
    (yields : Yields evaluator run stage acts result policy next) :
    Judged request evaluator log run.stepIndex result policy := by
  cases yields with
  | settled free current decided =>
      rcases decides_current resolves current evaluator with ⟨number, decides⟩
      have policy := ruled.decided resolves free current
      rw [decided] at decides policy
      rcases decides.begins with ⟨index, iteration, message⟩
      exact ⟨index.trans number, policy, fun _ => message⟩
  | passedOver present looping items passed =>
      rcases placed.current _ present with ⟨step, current, index, bindings⟩
      exact judged_of_passesOver index (ruled.policy _ present) passed
  | answered flying present answer =>
      rcases placed.current _ present with ⟨step, current, index, bindings⟩
      exact judged_of_answer index (ruled.policy _ present) answer

/-- Acts that send nothing leave the rule of a run, if the results among them do
not end it. -/
theorem Ruled.quiet {request : RunRequest} {evaluator : Evaluator} {run : Run}
    {log more : Log} (ruled : Ruled request evaluator run log)
    (unsent : more.dispatches = [])
    (going : ∀ result ∈ more.results, result.stepIndex ≤ run.stepIndex ∧
        request.halts evaluator log result = false) :
    Ruled request evaluator run (log ++ more) := by
  have none (index : Nat) :
      ∀ dispatch ∈ more.dispatches, index ≤ dispatch.stepIndex := by
    rw [unsent]
    intro dispatch member
    exact (List.not_mem_nil member).elim
  have same : (log ++ more).dispatches = log.dispatches := by
    rw [Log.dispatches_append, unsent, List.append_nil]
  refine ⟨ruled.ambient, same ▸ ruled.scope, same ▸ ruled.sent, same ▸ ruled.left,
    ?_, ?_⟩
  · intro active present
    rw [RunRequest.governing_append (none _)]
    exact ruled.policy active present
  · intro result member
    rw [RunRequest.halts_append (none _)]
    rw [Log.results_append] at member
    rcases List.mem_append.mp member with member | member
    · exact ruled.going result member
    · exact going result member

/-- A run that leaves its step stays under its rule. -/
theorem Ruled.leave {request : RunRequest} {evaluator : Evaluator} {run next : Run}
    {log : Log} (ruled : Ruled request evaluator run log)
    (ambient : next.ambient = run.ambient) (scope : next.scope = run.scope)
    (free : next.active = none) (stepIndex : next.stepIndex = run.stepIndex + 1) :
    Ruled request evaluator next log := by
  have further : run.stepIndex ≤ next.stepIndex := by
    rw [stepIndex]
    exact Nat.le_succ _
  refine ⟨ambient.trans ruled.ambient, scope.trans ruled.scope, ?_, ?_, ?_, ?_⟩
  · intro dispatch member
    exact Nat.le_trans (ruled.sent dispatch member) further
  · intro _ dispatch member
    rw [stepIndex]
    exact Nat.lt_succ_of_le (ruled.sent dispatch member)
  · intro active present
    rw [free] at present
    cases present
  · intro result member
    rcases ruled.going result member with ⟨behind, going⟩
    exact ⟨Nat.le_trans behind further, going⟩

/-- A run whose active step has only come further stays under its rule. -/
theorem Ruled.stay {request : RunRequest} {evaluator : Evaluator} {run next : Run}
    {log : Log} {active later : ActiveStep}
    (ruled : Ruled request evaluator run log) (present : run.active = some active)
    (following : next.active = some later) (ambient : next.ambient = run.ambient)
    (scope : next.scope = run.scope) (stepIndex : next.stepIndex = run.stepIndex)
    (policy : later.policy = active.policy) :
    Ruled request evaluator next log := by
  refine ⟨ambient.trans ruled.ambient, scope.trans ruled.scope,
    stepIndex ▸ ruled.sent, ?_, ?_, stepIndex ▸ ruled.going⟩
  · intro free
    rw [following] at free
    cases free
  · intro other equal
    rcases Option.some.inj (following.symm.trans equal) with rfl
    rw [policy, stepIndex]
    exact ruled.policy active present

/-- A run that goes on after a result stays under its rule. -/
theorem Yields.ruled {request : RunRequest} {evaluator : Evaluator}
    {run next : Run} {stage : Stage} {log acts : Log} {result : StepResult}
    {policy : Policy} (resolves : run.workflow.Resolves request.workflow)
    (placed : run.Placed) (ruled : Ruled request evaluator run log)
    (yields : Yields evaluator run stage acts result policy next)
    (lasting : (result.isFailure && policy.halts) = false) :
    Ruled request evaluator next (log ++ (acts ++ [.recorded result])) := by
  have judged := yields.judged resolves placed ruled
  rcases (yields.leads resolves placed).record result with ⟨own, results, unsent⟩
  have recorded :
      Ruled request evaluator run (log ++ (acts ++ [.recorded result])) := by
    refine ruled.quiet unsent ?_
    rw [results]
    intro other member
    rcases List.mem_singleton.mp member with rfl
    refine ⟨Nat.le_of_eq judged.stepIndex, ?_⟩
    rw [RunRequest.halts, judged.stepIndex, ← judged.policy]
    exact lasting
  cases yields with
  | settled free current decided => exact recorded.leave rfl rfl free rfl
  | passedOver present looping items passed =>
      exact recorded.stay present rfl rfl rfl rfl rfl
  | answered flying present answer =>
      exact recorded.stay present rfl rfl rfl rfl rfl

/-- A dispatch keeps what its step has declared. -/
theorem Ruled.send {request : RunRequest} {evaluator : Evaluator} {run : Run}
    {log asked : Log} {active sender : ActiveStep} {scope : DispatchScope}
    {iteration : Option Iteration} (ruled : Ruled request evaluator run log)
    (resolves : run.workflow.Resolves request.workflow) (placed : run.Placed)
    (present : run.active = some active) (asks : asked.AsksFor run.stepIndex)
    (ready : Ready evaluator run active asked sender scope iteration) :
    Ruled request evaluator (run.send sender scope iteration).1
      (log ++ (asked ++ [.sent (run.send sender scope iteration).2])) := by
  have same :
      sender.stepIndex = active.stepIndex ∧ sender.bindings = active.bindings ∧
        sender.policy = active.policy := by
    cases ready <;> exact ⟨rfl, rfl, rfl⟩
  rcases same with ⟨sameIndex, sameBindings, samePolicy⟩
  rcases placed.current active present with ⟨step, current, index, bindings⟩
  rcases resolves.declared current with ⟨definition, declared, stepResolves⟩
  rw [stepResolves.bindings_eq] at bindings
  rcases asks.sent (run.send sender scope iteration).2 with
    ⟨queries, unrecorded, sent⟩
  have dispatches :
      Log.dispatches
          (log ++ (asked ++ [.sent (run.send sender scope iteration).2])) =
        log.dispatches ++ [(run.send sender scope iteration).2] := by
    rw [Log.dispatches_append, sent]
  have results :
      Log.results (log ++ (asked ++ [.sent (run.send sender scope iteration).2])) =
        log.results := by
    rw [Log.results_append, unrecorded, List.append_nil]
  have place : (run.send sender scope iteration).2.stepIndex = run.stepIndex :=
    sameIndex.trans index
  have later :
      ∀ dispatch ∈ Log.dispatches
          (asked ++ [.sent (run.send sender scope iteration).2]),
        run.stepIndex ≤ dispatch.stepIndex := by
    rw [sent]
    intro dispatch member
    rcases List.mem_singleton.mp member with rfl
    exact Nat.le_of_eq place.symm
  refine ⟨ruled.ambient, ?_, ?_, ?_, ?_, ?_⟩
  · rw [dispatches, RunRequest.scopeAfter_concat (place.symm ▸ declared)]
    show Scope.persist run.scope scope.bindings sender.bindings = _
    rw [sameBindings, bindings, ruled.scope]
    rfl
  · rw [dispatches]
    intro dispatch member
    rcases List.mem_append.mp member with member | member
    · exact ruled.sent dispatch member
    · rcases List.mem_singleton.mp member with rfl
      exact Nat.le_of_eq place
  · rintro ⟨⟩
  · rintro _ ⟨⟩
    rw [samePolicy, ruled.policy active present]
    exact (RunRequest.governing_append later).symm
  · rw [results]
    intro result member
    rcases ruled.going result member with ⟨behind, going⟩
    refine ⟨behind, ?_⟩
    rw [RunRequest.halts_append fun dispatch sent =>
        Nat.le_trans behind (later dispatch sent)]
    exact going

/-- What a failure that has ended the run has left: it is the last act, and says
why it failed. -/
def Stopped (request : RunRequest) (evaluator : Evaluator) (log : Log) : Prop :=
  ∃ (before : Log) (last : StepResult), log = before ++ [.recorded last] ∧
    last.message.isSome ∧ request.halts evaluator log last = true ∧
    ∀ result ∈ before.results, request.halts evaluator log result = false

/-- What the policies have made of a run at a stage. -/
def Concluded (request : RunRequest) (evaluator : Evaluator) (run : Run)
    (log : Log) : Stage → Prop
  | .over .stopped => Stopped request evaluator log
  | .over _ => ∀ result ∈ log.results, request.halts evaluator log result = false
  | _ => Ruled request evaluator run log

/-- A run that has concluded its steps so far goes on by their policies. -/
theorem Concluded.ruled {request : RunRequest} {evaluator : Evaluator}
    {run next : Run} {stage : Stage} {log acts : Log} {result : StepResult}
    {policy : Policy} (concluded : Concluded request evaluator run log stage)
    (yields : Yields evaluator run stage acts result policy next) :
    Ruled request evaluator run log := by
  cases yields <;> exact concluded

/-- A failure under a policy that ends the run is the first one, and the last
act. -/
theorem Yields.stopped {request : RunRequest} {evaluator : Evaluator}
    {run next : Run} {stage : Stage} {log acts : Log} {result : StepResult}
    {policy : Policy} (resolves : run.workflow.Resolves request.workflow)
    (placed : run.Placed) (ruled : Ruled request evaluator run log)
    (yields : Yields evaluator run stage acts result policy next)
    (halting : (result.isFailure && policy.halts) = true) :
    Stopped request evaluator (log ++ (acts ++ [.recorded result])) := by
  have judged := yields.judged resolves placed ruled
  have leads := yields.leads resolves placed
  rcases leads.record result with ⟨own, results, unsent⟩
  have none (index : Nat) :
      ∀ dispatch ∈ Log.dispatches (acts ++ [.recorded result]),
        index ≤ dispatch.stepIndex := by
    rw [unsent]
    intro dispatch member
    exact (List.not_mem_nil member).elim
  refine ⟨log ++ acts, result, (List.append_assoc _ _ _).symm, ?_, ?_, ?_⟩
  · exact judged.message (Bool.and_eq_true_iff.mp halting).1
  · rw [RunRequest.halts_append (none _)]
    rw [RunRequest.halts, judged.stepIndex, ← judged.policy]
    exact halting
  · intro earlier member
    rw [Log.results_append, leads.unrecorded, List.append_nil] at member
    rw [RunRequest.halts_append (none _)]
    exact (ruled.going earlier member).2

/-- Every move keeps the run under its rule, or ends it as its policies say. -/
theorem Move.concluded {request : RunRequest} {evaluator : Evaluator}
    {run next : Run} {stage later : Stage} {log acts : Log}
    (resolves : run.workflow.Resolves request.workflow) (placed : run.Placed)
    (moved : Move evaluator run stage acts next later)
    (concluded : Concluded request evaluator run log stage) :
    Concluded request evaluator next (log ++ acts) later := by
  cases moved with
  | goesOn yields lasting =>
      exact yields.ruled resolves placed (concluded.ruled yields) lasting
  | stops yields halting =>
      exact yields.stopped resolves placed (concluded.ruled yields) halting
  | enters free current decided =>
      have ruled : Ruled request evaluator run log := concluded
      rcases decides_current resolves current evaluator with ⟨number, decides⟩
      have policy := ruled.decided resolves free current
      rw [decided] at decides policy
      have asks := decides.asks
      have quiet := ruled.quiet asks.dispatches (by
        rw [asks.results]
        intro result member
        exact (List.not_mem_nil member).elim)
      refine ⟨quiet.ambient, quiet.scope, quiet.sent, nofun, ?_, quiet.going⟩
      rintro _ ⟨⟩
      rw [RunRequest.governing_append]
      · exact policy
      · rw [asks.dispatches]
        intro dispatch member
        exact (List.not_mem_nil member).elim
  | leaves present finished =>
      rw [List.append_nil]
      exact Ruled.leave concluded rfl rfl rfl rfl
  | sends present ready =>
      rcases placed.current _ present with ⟨step, current, index, bindings⟩
      have explores := ready.explores
      rw [index] at explores
      exact Ruled.send concluded resolves placed present explores.asks ready
  | completes free done =>
      rw [List.append_nil]
      intro result member
      exact (Ruled.going concluded result member).2
  | cancels =>
      rw [List.append_nil]
      intro result member
      exact (Ruled.going concluded result member).2

/-- Whatever the answers are, a run ends as its policies say. -/
theorem Reaches.concluded {request : RunRequest} {evaluator : Evaluator}
    {first run : Run} {stage : Stage} {log : Log} (begins : Begins request first)
    (reached : Reaches evaluator first .working log run stage) :
    Concluded request evaluator run log stage := by
  induction reached with
  | refl =>
      have none {Property : Dispatch → Prop} :
          ∀ dispatch ∈ Log.dispatches [], Property dispatch :=
        fun dispatch member => (List.not_mem_nil member).elim
      refine ⟨begins.ambient, ?_, none, fun _ => none, ?_, ?_⟩
      · rw [begins.scope, begins.resolves.bindings]
        rfl
      · intro active present
        rw [begins.active] at present
        cases present
      · intro result member
        exact (List.not_mem_nil member).elim
  | move reached moved hypothesis =>
      exact moved.concluded (reached.resolves begins) (reached.placed begins)
        hypothesis

end Run

/-! ## What a report tells -/

/-- The summary of a run that a failure has stopped. -/
def stopSummary (last : StepResult) (totalSteps : Nat) (message : String) :
    String :=
  s!"failed at step {last.stepIndex + 1}/{totalSteps} ({
    last.displayLabel}): {message}"

theorem countP_failure_pos {earlier : List StepResult} {last : StepResult}
    (failure : last.isFailure = true) :
    0 < (earlier ++ [last]).countP StepResult.isFailure :=
  List.countP_pos_iff.mpr
    ⟨last, List.mem_append_right earlier List.mem_cons_self, failure⟩

/-- What the summary tells of a stopped run, of one with failures, and of one
without any. -/
theorem summarize_stopped {earlier : List StepResult} {last : StepResult}
    {message : String} (failure : last.isFailure = true)
    (said : last.message = some message) (totalSteps : Nat) :
    summarize (earlier ++ [last]) totalSteps .stopped =
      stopSummary last totalSteps message := by
  have some : 0 < (earlier ++ [last]).countP StepResult.isFailure :=
    countP_failure_pos failure
  unfold summarize
  simp only [Nat.ne_of_gt some, if_false, List.getLast?_append,
    List.getLast?_singleton, Option.some_or, failure, said, Option.getD_some,
    decide_true, Bool.and_self, if_true]
  rfl

theorem summarize_failed {results : List StepResult} (totalSteps : Nat)
    (some : 0 < results.countP StepResult.isFailure) :
    summarize results totalSteps .completed =
      s!"{results.countP StepResult.isFailure} of {
        results.length} steps failed" := by
  unfold summarize
  simp only [Nat.ne_of_gt some, if_false, reduceCtorEq, decide_false,
    Bool.false_and, Bool.false_eq_true]
  split <;> rfl

/-- The summary of a run without failures. -/
def passedSummary (results : List StepResult) : String :=
  let passed :=
    s!"{results.countP StepResult.isSuccess}/{results.length} steps passed"
  let skipped := results.countP StepResult.isSkipped
  if 0 < skipped then s!"{passed}, {skipped} skipped" else passed

theorem summarize_passed {results : List StepResult} (totalSteps : Nat)
    (none : results.countP StepResult.isFailure = 0) :
    summarize results totalSteps .completed = passedSummary results := by
  unfold summarize passedSummary
  simp only [none, if_true]

namespace Run

/-- One failure makes a run failed, unless it is canceled. -/
theorem statusOf_of_failure {results : List StepResult} {ending : RunEnd}
    (uncanceled : ending ≠ .canceled)
    (some : 0 < results.countP StepResult.isFailure) :
    statusOf results ending = .failed := by
  have any : results.any StepResult.isFailure = true :=
    List.any_eq_true.mpr (List.countP_pos_iff.mp some)
  simp only [statusOf, uncanceled, any, if_false, if_true]

theorem statusOf_of_no_failure {results : List StepResult} {ending : RunEnd}
    (uncanceled : ending ≠ .canceled)
    (none : results.countP StepResult.isFailure = 0) :
    statusOf results ending = .succeeded := by
  have any : results.any StepResult.isFailure = false :=
    List.any_eq_false.mpr (List.countP_eq_zero.mp none)
  simp only [statusOf, uncanceled, any, if_false, Bool.false_eq_true]

end Run

/-- A report tells how the run ended, given the policies that govern its
results. -/
structure Report.Tells (report : Report) (governing : StepResult → Policy) :
    Prop where
  /-- The run was stopped exactly if the last result is a failure that stops it,
  and no earlier one does. -/
  stopped : report.stopped = true ↔
    ∃ earlier last, report.results = earlier ++ [last] ∧ last.isFailure = true ∧
      governing last = .stop ∧
        ∀ result ∈ earlier, result.isFailure = true → governing result = .goOn
  /-- A stopped run has failed, and the summary names the last result. -/
  failedAt :
    report.stopped = true →
      report.status = .failed ∧
        ∃ earlier last message,
          report.results = earlier ++ [last] ∧ last.message = some message ∧
            report.summary = stopSummary last report.totalSteps message
  /-- No failure stops a run that was not stopped. -/
  continued : report.stopped = false →
    ∀ result ∈ report.results, result.isFailure = true → governing result = .goOn
  /-- A run with failures that was not stopped has failed, and the summary counts
  them. -/
  failed :
    report.stopped = false → 1 ≤ report.failedCount →
      report.status = .failed ∧
        report.summary =
          s!"{report.failedCount} of {report.results.length} steps failed"
  /-- A run without failures has succeeded. -/
  passed : report.stopped = false → report.failedCount = 0 →
    report.status = .succeeded ∧ report.summary = passedSummary report.results

theorem Policy.halts_eq_true_iff {policy : Policy} :
    policy.halts = true ↔ policy = .stop := by
  cases policy <;> decide

theorem Policy.halts_eq_false_iff {policy : Policy} :
    policy.halts = false ↔ policy = .goOn := by
  cases policy <;> decide

/-- A result halts its run exactly if it is a failure under the policy to stop. -/
theorem RunRequest.halts_eq_true_iff {request : RunRequest} {evaluator : Evaluator}
    {log : Log} {result : StepResult} :
    request.halts evaluator log result = true ↔
      result.isFailure = true ∧
        request.governing evaluator log result.stepIndex = .stop := by
  rw [halts, Bool.and_eq_true, Policy.halts_eq_true_iff]

theorem RunRequest.halts_eq_false_iff {request : RunRequest}
    {evaluator : Evaluator} {log : Log} {result : StepResult} :
    request.halts evaluator log result = false ↔
      (result.isFailure = true →
        request.governing evaluator log result.stepIndex = .goOn) := by
  rw [halts, Bool.and_eq_false_imp, Policy.halts_eq_false_iff]

namespace Run

/-- The report of a run that was stopped tells why, by the policies of its
results. -/
theorem tells_of_stopped {request : RunRequest} {evaluator : Evaluator} {run : Run}
    {log : Log} (results : run.results = log.results)
    (stopped : Stopped request evaluator log) (reason : Option String)
    (now : Int) : (run.report .stopped reason now).Tells fun result =>
      request.governing evaluator log result.stepIndex := by
  rcases stopped with ⟨before, last, rfl, said, halting, going⟩
  rcases Option.isSome_iff_exists.mp said with ⟨message, said⟩
  rcases RunRequest.halts_eq_true_iff.mp halting with ⟨failure, policy⟩
  have all : run.results = before.results ++ [last] := by
    rw [results, Log.results_append, Log.results_recorded]
  refine ⟨⟨fun _ => ?_, fun _ => rfl⟩, fun _ => ⟨?_, ?_⟩, nofun, nofun, nofun⟩
  · exact ⟨before.results, last, all, failure, policy,
      fun result member => RunRequest.halts_eq_false_iff.mp (going result member)⟩
  · show statusOf run.results .stopped = .failed
    rw [all]
    exact statusOf_of_failure (by decide) (countP_failure_pos failure)
  · refine ⟨before.results, last, message, all, said, ?_⟩
    show summarize run.results run.workflow.totalSteps .stopped = _
    rw [all, summarize_stopped failure said]
    rfl

theorem tells_of_completed {request : RunRequest} {evaluator : Evaluator}
    {run : Run} {log : Log} (results : run.results = log.results)
    (going : ∀ result ∈ log.results, request.halts evaluator log result = false)
    (reason : Option String) (now : Int) :
    (run.report .completed reason now).Tells fun result =>
      request.governing evaluator log result.stepIndex := by
  rw [← results] at going
  have continued (result : StepResult) (member : result ∈ run.results) :=
    RunRequest.halts_eq_false_iff.mp (going result member)
  refine ⟨⟨nofun, ?_⟩, nofun, fun _ => continued, fun _ some => ⟨?_, ?_⟩,
    fun _ none => ⟨?_, ?_⟩⟩
  · rintro ⟨earlier, last, equal, failure, policy, rest⟩
    have member : last ∈ run.results := by
      show last ∈ (run.report .completed reason now).results
      rw [equal]
      exact List.mem_append_right earlier List.mem_cons_self
    rw [continued last member failure] at policy
    cases policy
  · exact statusOf_of_failure (by decide : RunEnd.completed ≠ .canceled) some
  · exact summarize_failed _ some
  · exact statusOf_of_no_failure (by decide : RunEnd.completed ≠ .canceled) none
  · exact summarize_passed _ none

end Run

theorem mem_results_of_split {before since log : Log} {result : StepResult}
    (split : log = before ++ .recorded result :: since) :
    result ∈ log.results := by
  subst split
  exact List.mem_filterMap.mpr
    ⟨_, List.mem_append_right before List.mem_cons_self, rfl⟩

/-- Of a stopped run's results only the last one has ended it, and it is the last
act. -/
theorem Run.Stopped.halts_iff {request : RunRequest} {evaluator : Evaluator}
    {log before since : Log} {result : StepResult}
    (stopped : Run.Stopped request evaluator log)
    (split : log = before ++ .recorded result :: since) :
    request.halts evaluator log result = true ↔ since = [] := by
  rcases stopped with ⟨earlier, last, equal, said, halting, going⟩
  rcases List.eq_nil_or_concat since with rfl | ⟨others, act, rfl⟩
  · rcases List.append_inj' (split.symm.trans equal) rfl with ⟨rfl, same⟩
    rcases Act.recorded.inj (List.cons.inj same).1 with rfl
    exact ⟨fun _ => rfl, fun _ => halting⟩
  · have longer : before ++ .recorded result :: others.concat act =
        (before ++ .recorded result :: others) ++ [act] := by
      rw [List.concat_eq_append, List.append_assoc, List.cons_append]
    rcases List.append_inj' ((longer.symm.trans split.symm).trans equal) rfl with
      ⟨rfl, same⟩
    rw [going result (mem_results_of_split rfl)]
    simp

/-- Failures end a run by their policies: at once if the policy that governs them
is to stop, and not at all otherwise.  The report tells so, and a run that was not
stopped has results of every step. -/
structure EndsByPolicy (request : RunRequest) (evaluator : Evaluator) (log : Log)
    (directive : Directive) : Prop where
  /-- Exactly a failure whose policy is to stop is the last act of a run that was
  stopped. -/
  atOnce : ∀ before result since, log = before ++ .recorded result :: since →
    (result.isFailure = true ∧
        request.governing evaluator log result.stepIndex = .stop ↔
      since = [] ∧ ∃ report, directive = .finished report ∧ report.stopped = true)
  /-- The report has the results of the run, and tells how they have ended it. -/
  told :
    ∀ report, directive = .finished report →
      report.results = log.results ∧
        report.totalSteps = request.workflow.steps.length ∧
        report.Tells fun result => request.governing evaluator log result.stepIndex
  /-- A run that was not stopped has done every step. -/
  whole :
    ∀ report, directive = .finished report → report.stopped = false →
      ∀ index < request.workflow.steps.length, ∃ result ∈ report.results,
        result.stepIndex = index

/-- Where no failure ends the run, no result is the last act of a run that was
stopped. -/
theorem atOnce_of_going {request : RunRequest} {evaluator : Evaluator} {log : Log}
    {directive : Directive}
    (going : ∀ result ∈ log.results, request.halts evaluator log result = false)
    (unstopped : ∀ report, directive = .finished report → report.stopped = false)
    (before : Log) (result : StepResult) (since : Log)
    (split : log = before ++ .recorded result :: since) :
    result.isFailure = true ∧
        request.governing evaluator log result.stepIndex = .stop ↔
      since = [] ∧
        ∃ report, directive = .finished report ∧ report.stopped = true := by
  rw [← RunRequest.halts_eq_true_iff, going result (mem_results_of_split split)]
  constructor
  · rintro ⟨⟩
  · rintro ⟨_, report, finished, stopped⟩
    rw [unstopped report finished] at stopped
    cases stopped

namespace Run

variable {request : RunRequest} {evaluator : Evaluator} {run : Run} {log : Log}

/-- Each way to end gives the end that the policies ask for. -/
theorem endsByPolicy_of_stopped (results : run.results = log.results)
    (totalSteps : run.workflow.totalSteps = request.workflow.steps.length)
    (stopped : Stopped request evaluator log) (reason : Option String)
    (now : Int) :
    EndsByPolicy request evaluator log
      (.finished (run.report .stopped reason now)) := by
  refine ⟨?_, ?_, ?_⟩
  · intro before result since split
    rw [← RunRequest.halts_eq_true_iff, stopped.halts_iff split]
    exact ⟨fun last => ⟨last, _, rfl, rfl⟩, fun last => last.1⟩
  · rintro report ⟨⟩
    exact ⟨results, totalSteps, tells_of_stopped results stopped reason now⟩
  · rintro report ⟨⟩ unstopped
    cases unstopped

theorem endsByPolicy_of_completed (results : run.results = log.results)
    (totalSteps : run.workflow.totalSteps = request.workflow.steps.length)
    (going : ∀ result ∈ log.results, request.halts evaluator log result = false)
    {shapes : List Shape} (fits : FitAll evaluator log shapes)
    (length : shapes.length = run.workflow.totalSteps)
    (full : log.results.map StepResult.place = layout 0 shapes)
    (reason : Option String) (now : Int) :
    EndsByPolicy request evaluator log
      (.finished (run.report .completed reason now)) := by
  refine ⟨?_, ?_, ?_⟩
  · apply atOnce_of_going going
    rintro report ⟨⟩
    rfl
  · rintro report ⟨⟩
    exact ⟨results, totalSteps, tells_of_completed results going reason now⟩
  · rintro report ⟨⟩ unstopped index within
    rw [← totalSteps, ← length] at within
    rcases fits.exists_place within with ⟨iteration, there⟩
    rw [← full, ← results] at there
    rcases List.mem_map.mp there with ⟨result, member, place⟩
    exact ⟨result, member, (Prod.mk.inj place).1⟩

end Run

namespace Engine

/-- Without cancellation, failures end a play by the policies that govern them,
and by nothing else. -/
theorem failures_end_play_by_policy {engine : Engine} {request : RunRequest}
    {workflow : ResolvedWorkflow} (free : engine.run = none)
    (resolved : request.workflow.resolve request.document = .ok workflow)
    (evaluator : Evaluator) (now : Int) (answers : List (Outcome × Int))
    (uncanceled : ∀ answer ∈ answers, answer.1 ≠ .canceled) :
    ∃ (log : Log) (directive : Directive) (after : Engine),
      engine.play evaluator request now answers = ⟨log, .ok directive, after⟩ ∧
        EndsByPolicy request evaluator log directive := by
  rcases brings_play free resolved evaluator now answers with
    ⟨played, equal, brings⟩
  have begins : Run.Begins request (engine.beginRun request workflow now) :=
    .beginRun resolved now
  rcases brings with ⟨next, dispatch, errors, value, reached⟩ |
      ⟨next, ending, reason, later, errors, value, canceled, reached⟩
  · have ruled : Run.Ruled request evaluator next played.log :=
      reached.concluded begins
    rw [value] at equal
    refine ⟨_, _, _, equal, ?_, nofun, nofun⟩
    exact atOnce_of_going (fun result member => (ruled.going result member).2)
      nofun
  · have concluded := reached.concluded begins
    have declared : next.workflow.totalSteps = request.workflow.steps.length :=
      (reached.resolves begins).length
    rcases reached.accounted begins with ⟨results, shapes, blocks, full⟩
    rw [value] at equal
    refine ⟨_, _, _, equal, ?_⟩
    cases ending with
    | completed =>
        rcases full rfl with ⟨length, full⟩
        exact Run.endsByPolicy_of_completed results declared concluded blocks.fits
          length full reason later
    | stopped =>
        exact Run.endsByPolicy_of_stopped results declared concluded reason later
    | canceled =>
        rcases canceled rfl with ⟨answer, member, gave⟩
        exact (uncanceled answer member gave).elim

end Engine

/-! ### A failure to go on from, and one to stop at -/

/-- The request is tried by a branch that goes on at failures, and then once
more. -/
def tryTwice : RunRequest :=
  userWorkflow
    [{ StepDefinition.ofKind .conditional with
        conditional :=
          some ⟨⟨some "ready", some "user", none, some .goOn, 3⟩, [], none⟩ },
      { StepDefinition.ofKind .request with
        using_ := some "user" }]

/-- Every condition is true. -/
def alwaysTrue : Evaluator :=
  fun _ => .ok (.data (.bool true))

theorem failures_end_play_by_policy_tryTwice :
    ∃ log directive after,
      Engine.idle.play alwaysTrue tryTwice 0
            [(.completed (.transportFailure "refused"), 1),
              (.completed (.transportFailure "refused"), 2)] =
          ⟨log, .ok directive, after⟩ ∧
        EndsByPolicy tryTwice alwaysTrue log directive ∧
        log.results.map StepResult.isFailure = [true, true] ∧
        tryTwice.governing alwaysTrue log 0 = .goOn ∧
        tryTwice.governing alwaysTrue log 1 = .stop := by
  obtain ⟨log, directive, after, played, ends⟩ :=
    Engine.failures_end_play_by_policy (rfl : Engine.idle.run = none)
      (rfl : tryTwice.workflow.resolve tryTwice.document = .ok _) alwaysTrue 0
      [(.completed (.transportFailure "refused"), 1),
        (.completed (.transportFailure "refused"), 2)] (by decide)
  refine ⟨log, directive, after, played, ends, ?_⟩
  have same : log = (Engine.idle.play alwaysTrue tryTwice 0
      [(.completed (.transportFailure "refused"), 1),
        (.completed (.transportFailure "refused"), 2)]).log := by
    rw [played]
  rw [same]
  decide +kernel

end RequestFlow
