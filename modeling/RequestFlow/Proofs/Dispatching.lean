import RequestFlow.Proofs.Position

/-!
# One request at a time

Between two of its answers the engine sends at most one request, and sends it
last.  The errors that it has kept have no part in this: whatever they are, it
answers alike and adds those that it raises.  Main statement: after an answer the
acts of the run end with the dispatch that is given out, and no other request is
among them.
-/

namespace RequestFlow

open Condition

/-! ## Acts with at most one request -/

namespace Log

/-- The acts end with the dispatch, if there is one, and send nothing else. -/
def SendsOnly (log : Log) : Option Dispatch → Prop
  | none => log.dispatches = []
  | some dispatch =>
      ∃ quiet : Log, log = quiet ++ [.sent dispatch] ∧ quiet.dispatches = []

/-- Acts without a dispatch in front change nothing of what is sent. -/
theorem SendsOnly.prepend {quiet log : Log} {given : Option Dispatch}
    (sends : log.SendsOnly given) (silent : quiet.dispatches = []) :
    (quiet ++ log).SendsOnly given := by
  cases given with
  | none =>
      show (quiet ++ log).dispatches = []
      rw [dispatches_append, silent]
      exact sends
  | some dispatch =>
      rcases sends with ⟨others, rfl, still⟩
      refine ⟨quiet ++ others, (List.append_assoc _ _ _).symm, ?_⟩
      rw [dispatches_append, silent, still]
      rfl

end Log

/-- The dispatch that an active step comes to. -/
def Advance.dispatch? : Advance → Option Dispatch
  | dispatched _ dispatch => some dispatch
  | _ => none

/-- The dispatch that a run comes to. -/
def Progression.dispatch? : Progression → Option Dispatch
  | dispatched _ dispatch => some dispatch
  | finished _ _ => none

/-- The dispatch that the engine gives out. -/
def Directive.dispatch? : Directive → Option Dispatch
  | dispatch sent => some sent
  | _ => none

namespace Run

/-! ## Up to the next request -/

theorem sendsOnly_sendNow (run : Run) (active : ActiveStep) (scope : DispatchScope)
    (iteration : Option Iteration) :
    (run.sendNow active scope iteration).log.SendsOnly
      (run.sendNow active scope iteration).value.dispatch? :=
  ⟨[], rfl, rfl⟩

/-- By induction on the items ahead: a loop sends the request that it comes to, if
any. -/
theorem sendsOnly_advanceItems (evaluator : Evaluator) (active : ActiveStep)
    (name : String) (keys : List String) (done : Nat) (ahead : List Value)
    (run : Run) :
    (advanceItems evaluator active name keys done ahead run).log.SendsOnly
      (advanceItems evaluator active name keys done ahead
        run).value.dispatch? := by
  induction ahead generalizing done run with
  | nil => rfl
  | cons item ahead hypothesis =>
      rw [advanceItems]
      simp only
      split
      · simp only [Traced.value_bind, Traced.log_bind]
        apply Log.SendsOnly.prepend _ rfl
        split
        · rfl
        · exact hypothesis _ _
      · split
        · exact sendsOnly_sendNow run _ _ _
        · simp only [Traced.value_bind, Traced.log_bind]
          apply Log.SendsOnly.prepend _ rfl
          split
          · split
            · exact sendsOnly_sendNow run _ _ _
            · simp only [Traced.value_bind, Traced.log_bind]
              exact (hypothesis _ _).prepend rfl
          · simp only [Traced.value_bind, Traced.log_bind]
            apply Log.SendsOnly.prepend _ rfl
            split
            · rfl
            · exact hypothesis _ _

/-- An active step sends nothing but the request that it comes to. -/
theorem sendsOnly_advanceActive (run : Run) (evaluator : Evaluator)
    (active : ActiveStep) :
    (run.advanceActive evaluator active).log.SendsOnly
      (run.advanceActive evaluator active).value.dispatch? := by
  rw [advanceActive]
  split
  · rfl
  · exact sendsOnly_sendNow run _ _ _
  · exact sendsOnly_advanceItems evaluator active _ _ _ _ run

/-- Where an active step is done, what is sent comes from the steps behind it. -/
theorem sendsOnly_of_advance {advance : Traced Advance}
    {rest : Run → Traced Progression}
    (sends : advance.log.SendsOnly advance.value.dispatch?)
    (later : ∀ next, advance.value = .done next →
        (rest next).log.SendsOnly (rest next).value.dispatch?) :
    let whole := advance >>= fun
      | .dispatched run dispatch => pure (.dispatched run dispatch)
      | .halted run => pure (.finished run .stopped)
      | .done run => rest run
    whole.log.SendsOnly whole.value.dispatch? := by
  simp only [Traced.value_bind, Traced.log_bind]
  cases came : advance.value with
  | dispatched next dispatch =>
      rw [came] at sends
      simpa [Advance.dispatch?, Progression.dispatch?] using sends
  | halted next =>
      rw [came] at sends
      simpa [Advance.dispatch?, Progression.dispatch?] using sends
  | done next =>
      rw [came] at sends
      exact (later next came).prepend sends

/-- By induction on the steps: their decisions send nothing, and the first step
that becomes active and has something to send ends the work. -/
theorem sendsOnly_proceed (evaluator : Evaluator) {steps : List ResolvedStep}
    (quiet : ∀ step ∈ steps, ∀ context : StepContext,
        (step.next context).log.dispatches = [])
    (run : Run) :
    (run.proceed evaluator steps).log.SendsOnly
      (run.proceed evaluator steps).value.dispatch? := by
  induction steps generalizing run with
  | nil => rfl
  | cons step steps hypothesis =>
      have later :=
        hypothesis fun other member => quiet other (List.mem_cons_of_mem _ member)
      rw [proceed]
      simp only [Traced.value_bind, Traced.log_bind]
      apply Log.SendsOnly.prepend _ (quiet step List.mem_cons_self _)
      split
      · simp only [Traced.value_bind, Traced.log_bind]
        apply Log.SendsOnly.prepend _ (dispatches_raiseErrorOf _)
        apply Log.SendsOnly.prepend _ rfl
        split
        · rfl
        · exact later _
      · exact sendsOnly_of_advance (sendsOnly_advanceActive run evaluator _)
          fun next came => later _

/-- What a run of a resolved workflow does next ends with the request that it
sends. -/
theorem sendsOnly_resume {workflow : WorkflowDefinition} {run : Run}
    (resolves : run.workflow.Resolves workflow) (evaluator : Evaluator) :
    (run.resume evaluator).log.SendsOnly
      (run.resume evaluator).value.dispatch? := by
  have quiet (index : Nat) :
      ∀ step ∈ run.workflow.steps.drop index, ∀ context : StepContext,
        (step.next context).log.dispatches = [] := by
    intro step member context
    rcases List.getElem?_of_mem (List.mem_of_mem_drop member) with ⟨place, current⟩
    rcases resolves.declared current with ⟨definition, declared, stepResolves⟩
    exact (stepResolves.decides context).asks.dispatches
  rw [resume]
  cases present : run.active with
  | none => exact sendsOnly_proceed evaluator (quiet run.stepIndex) run
  | some active =>
      refine sendsOnly_of_advance (sendsOnly_advanceActive _ evaluator active) ?_
      intro next came
      have stays :=
        staysAt_advanceActive { run with active := none } evaluator active
      rw [came] at stays
      apply sendsOnly_proceed
      rw [stepsFrom, stays.1]
      exact quiet _

/-! ## Requests in order -/

/-- The tokens of the dispatches of a run, numbered from one. -/
def tokens (run : Run) : List Token :=
  (List.range run.sequence).map fun index => ⟨run.id, index + 1⟩

/-- A run that has sent one more request has given out one more token. -/
theorem tokens_append {run next : Run} (number : next.id = run.id)
    (sequence : next.sequence = run.sequence + 1) :
    next.tokens = run.tokens ++ [⟨run.id, run.sequence + 1⟩] := by
  rw [tokens, tokens, number, sequence, List.range_succ, List.map_append,
    List.map_singleton]

/-- A move gives out the tokens of its dispatches. -/
theorem Move.tokens {evaluator : Evaluator} {workflow : WorkflowDefinition}
    {run next : Run} {stage later : Stage} {acts : Log}
    (resolves : run.workflow.Resolves workflow) (placed : run.Placed)
    (moved : Move evaluator run stage acts next later) :
    next.tokens = run.tokens ++ acts.dispatches.map Dispatch.token := by
  have unsent (result : StepResult) {earlier : Log}
      (silent : earlier.dispatches = []) :
      Log.dispatches (earlier ++ [.recorded result]) = [] := by
    rw [Log.dispatches_append, silent]
    rfl
  cases moved with
  | @goesOn stage earlier result policy next yields lasting =>
      rw [unsent result (yields.leads resolves placed).unsent, List.map_nil,
        List.append_nil]
      cases yields <;> rfl
  | @stops stage earlier result policy next yields halting =>
      rw [unsent result (yields.leads resolves placed).unsent, List.map_nil,
        List.append_nil]
      rfl
  | enters free current decided =>
      rcases decides_current resolves current evaluator with ⟨number, decides⟩
      rw [decided] at decides
      rw [decides.asks.dispatches, List.map_nil, List.append_nil]
      rfl
  | leaves present finished => exact (List.append_nil _).symm
  | sends present ready =>
      rw [(ready.explores.asks.sent _).2.2]
      exact tokens_append rfl rfl
  | completes free done => exact (List.append_nil _).symm
  | cancels => exact (List.append_nil _).symm

/-- The dispatches of a run are numbered in their order. -/
theorem Reaches.tokens {evaluator : Evaluator} {request : RunRequest}
    {first run : Run} {stage : Stage} {log : Log} (begins : Begins request first)
    (reached : Reaches evaluator first .working log run stage) :
    log.dispatches.map Dispatch.token = run.tokens := by
  induction reached with
  | refl =>
      rw [Run.tokens, begins.sequence]
      rfl
  | move reached moved hypothesis =>
      rw [moved.tokens (reached.resolves begins) (reached.placed begins),
        Log.dispatches_append, List.map_append, hypothesis]

end Run

namespace Engine

/-! ## Up to the next answer -/

/-- What an engine takes over from a run sends what the run has sent. -/
theorem sendsOnly_settle {engine : Engine} {now : Int}
    {traced : Traced Progression}
    (sends : traced.log.SendsOnly traced.value.dispatch?) :
    (engine.settle now traced).log.SendsOnly
      (engine.settle now traced).value.1.dispatch? := by
  rw [settle]
  cases came : traced.value with
  | dispatched next dispatch =>
      rw [came] at sends
      exact sends
  | finished next ending =>
      rw [came] at sends
      exact sends

/-- A start sends at most the first request. -/
theorem sendsOnly_start {engine : Engine} {request : RunRequest}
    {workflow : ResolvedWorkflow} (free : engine.run = none)
    (resolved : request.workflow.resolve request.document = .ok workflow)
    (evaluator : Evaluator) (now : Int) {directive : Directive}
    (started : (engine.start evaluator request now).value.1 = .ok directive) :
    (engine.start evaluator request now).log.SendsOnly directive.dispatch? := by
  let run := engine.beginRun request workflow now
  have known : run.workflow.Resolves request.workflow :=
    resolves_of_resolve resolved
  have settled :
      ((settle { engine with lastRunId := run.id } now
        (run.resume evaluator)).log).SendsOnly
        (settle { engine with lastRunId := run.id } now
          (run.resume evaluator)).value.1.dispatch? :=
    sendsOnly_settle (Run.sendsOnly_resume known evaluator)
  simp only [start, free, resolved, Traced.value_bind, Traced.log_bind,
    Traced.value_pure, Traced.log_pure, List.append_nil, Except.ok.injEq]
    at started ⊢
  rw [← started]
  exact settled

/-- Taking an answer sends at most the next request. -/
theorem sendsOnly_accept {engine : Engine} {workflow : WorkflowDefinition}
    {run : Run} (resolves : run.workflow.Resolves workflow) (evaluator : Evaluator)
    (active : ActiveStep) (result : StepResult) (now : Int) :
    (engine.accept evaluator run active result now).log.SendsOnly
      (engine.accept evaluator run active result now).value.1.dispatch? := by
  rw [accept]
  simp only [Traced.value_bind, Traced.log_bind, Run.value_record]
  apply Log.SendsOnly.prepend _ rfl
  split
  · rfl
  · exact sendsOnly_settle (Run.sendsOnly_resume (by exact resolves) evaluator)

/-- An answer leads to at most one request, which is sent last. -/
theorem sendsOnly_respond {engine : Engine} {workflow : WorkflowDefinition}
    (resolves : ∀ run, engine.run = some run → run.workflow.Resolves workflow)
    (evaluator : Evaluator) (token : Token) (outcome : Outcome) (now : Int) :
    (engine.respond evaluator token outcome now).log.SendsOnly
      (engine.respond evaluator token outcome now).value.1.dispatch? := by
  rw [respond]
  split
  · rfl
  · next run running =>
      have known := resolves run running
      cases run.inFlight with
      | none => rfl
      | some inFlight =>
          dsimp only
          split
          · rfl
          · cases run.active with
            | none => rfl
            | some active =>
                cases outcome with
                | canceled => rfl
                | skipped reason =>
                    exact sendsOnly_accept (by exact known) evaluator _ _ now
                | completed snapshot =>
                    exact sendsOnly_accept (by exact known) evaluator _ _ now

/-! ## Errors that were raised -/

/-- The engine with other errors still to be collected. -/
def withErrors (engine : Engine) (errors : List String) : Engine :=
  { engine with errors := errors }

/-- What is computed, for an engine that has kept other errors. -/
def keeping (errors : List String) (traced : Traced (Directive × Engine)) :
    Traced (Directive × Engine) :=
  ⟨traced.log, traced.value.1, traced.value.2.withErrors (errors ++ traced.errors)⟩

theorem pure_withErrors (directive : Directive) (engine : Engine)
    (errors : List String) :
    pure (directive, engine.withErrors errors) =
      keeping errors (pure (directive, engine)) := by
  simp [keeping, withErrors, Traced.errors, Log.errors, pure, Traced.of]

/-- What a run comes to is taken over alike whatever errors are kept. -/
theorem settle_withErrors (engine : Engine) (errors : List String) (now : Int)
    (traced : Traced Progression) :
    (engine.withErrors errors).settle now traced =
      keeping errors (engine.settle now traced) := by
  unfold settle
  cases traced.value <;> rfl

/-- A result is recorded alike whatever errors are kept. -/
theorem accept_withErrors (engine : Engine) (errors : List String)
    (evaluator : Evaluator) (run : Run) (active : ActiveStep) (result : StepResult)
    (now : Int) :
    (engine.withErrors errors).accept evaluator run active result now =
      keeping errors (engine.accept evaluator run active result now) := by
  rw [accept, accept]
  cases halts : result.isFailure && active.policy.halts with
  | true =>
      simp [keeping, withErrors, Traced.errors, bind, Traced.andThen, pure,
        Traced.of, Log.errors]
  | false =>
      have settled :=
        settle_withErrors engine errors now
          (Run.resume { run.withResult result with active := some active.advance }
            evaluator)
      simp only [bind, Traced.andThen, Run.value_record, settled]
      rfl

/-- An answer is taken alike whatever errors the engine has kept, and those that
it raises are added to them. -/
theorem respond_withErrors (engine : Engine) (errors : List String)
    (evaluator : Evaluator) (token : Token) (outcome : Outcome) (now : Int) :
    (engine.withErrors errors).respond evaluator token outcome now =
      keeping errors (engine.respond evaluator token outcome now) := by
  have quiet (directive : Directive) (after : Engine) :=
    pure_withErrors directive after errors
  have same : (engine.withErrors errors).run = engine.run := rfl
  rw [respond, respond, same]
  cases engine.run with
  | none => exact quiet _ _
  | some run =>
      dsimp only
      cases run.inFlight with
      | none => exact quiet _ _
      | some inFlight =>
          dsimp only
          split
          · exact quiet _ _
          · cases run.active with
            | none => exact quiet _ { engine with run := some _ }
            | some active =>
                cases outcome with
                | canceled => exact quiet _ { engine with run := none }
                | skipped reason =>
                    exact accept_withErrors engine errors evaluator _ _ _ now
                | completed snapshot =>
                    exact accept_withErrors engine errors evaluator _ _ _ now

/-- An answer adds the errors that it raises to those that are kept. -/
theorem errors_of_respond (engine : Engine) (evaluator : Evaluator) (token : Token)
    (outcome : Outcome) (now : Int) :
    (engine.respond evaluator token outcome now).value.2.errors =
      engine.errors ++ (engine.respond evaluator token outcome now).errors := by
  have same := respond_withErrors engine engine.errors evaluator token outcome now
  exact congrArg (fun traced => traced.value.2.errors) same

theorem errors_of_settle (engine : Engine) (now : Int)
    (traced : Traced Progression) :
    (engine.settle now traced).value.2.errors =
      engine.errors ++ (engine.settle now traced).errors := by
  unfold settle
  cases traced.value <;> rfl

/-- A start adds the errors that it raises to those that are kept. -/
theorem errors_of_start {engine : Engine} {request : RunRequest}
    {workflow : ResolvedWorkflow} (free : engine.run = none)
    (resolved : request.workflow.resolve request.document = .ok workflow)
    (evaluator : Evaluator) (now : Int) :
    (engine.start evaluator request now).value.2.errors =
      engine.errors ++ (engine.start evaluator request now).errors := by
  let run := engine.beginRun request workflow now
  have settled :=
    errors_of_settle { engine with lastRunId := run.id } now (run.resume evaluator)
  simp only [start, free, resolved, Traced.errors, Traced.value_bind,
    Traced.log_bind, Traced.value_pure, Traced.log_pure, List.append_nil]
  exact settled

/-- Answers are taken alike whatever errors are kept. -/
theorem feed_withErrors (evaluator : Evaluator) (answers : List (Outcome × Int))
    (directive : Directive) (engine : Engine) (errors : List String) :
    feed evaluator answers (directive, engine.withErrors errors) =
      keeping errors (feed evaluator answers (directive, engine)) := by
  induction answers generalizing directive engine errors with
  | nil => exact pure_withErrors directive engine errors
  | cons answer answers hypothesis =>
      cases directive with
      | dispatch dispatch =>
          let answered := engine.respond evaluator dispatch.token answer.1 answer.2
          let fed := feed evaluator answers answered.value
          have later :=
            hypothesis answered.value.1 answered.value.2
              (errors ++ answered.errors)
          have raised : errors ++ answered.errors ++ fed.errors =
              errors ++ Log.errors (answered.log ++ fed.log) := by
            rw [Log.errors_append, List.append_assoc]
            rfl
          rw [feed, feed, respond_withErrors]
          show
            Traced.mk
                (answered.log ++
                  (feed evaluator answers
                    (answered.value.1,
                      answered.value.2.withErrors
                        (errors ++ answered.errors))).log)
                (feed evaluator answers
                  (answered.value.1,
                    answered.value.2.withErrors
                      (errors ++ answered.errors))).value = _
          rw [later]
          show
            Traced.mk (answered.log ++ fed.log)
                (fed.value.1,
                  fed.value.2.withErrors
                    (errors ++ answered.errors ++ fed.errors)) = _
          rw [raised]
          rfl
      | finished report => exact pure_withErrors _ engine errors
      | stale => exact pure_withErrors _ engine errors

end Engine

end RequestFlow
