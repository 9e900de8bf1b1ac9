import Mathlib.Data.List.Induction
import RequestFlow.Proofs.Simulation

/-!
# Plays and sessions

A play is one run of an engine with the answers to its dispatches; a session is
any sequence of calls of one engine, with answers to whatever dispatch and runs in
whatever order.  Main statements: what a play brings is reached by the moves of
its run, and so is the run of every engine that a session leads to.
-/

namespace RequestFlow

open Condition

/-- A run as it begins, before its first move. -/
structure Run.Begins (request : RunRequest) (run : Run) : Prop where
  resolved : request.workflow.resolve request.document = .ok run.workflow
  origin : run.origin = request.origin
  ambient : run.ambient = request.ambient
  scope : run.scope = Scope.ofWorkflow run.workflow.bindings
  stepIndex : run.stepIndex = 0
  results : run.results = []
  active : run.active = none
  inFlight : run.inFlight = none
  sequence : run.sequence = 0

namespace Run

theorem Begins.beginRun {engine : Engine} {request : RunRequest}
    {workflow : ResolvedWorkflow}
    (resolved : request.workflow.resolve request.document = .ok workflow)
    (now : Int) : Begins request (engine.beginRun request workflow now) :=
  ⟨resolved, rfl, rfl, rfl, rfl, rfl, rfl, rfl, rfl⟩

/-- A run that waits for the answer to a dispatch has sent it last, for its active
step. -/
structure Awaits (run : Run) (dispatch : Dispatch) (inFlight : InFlight)
    (active : ActiveStep) : Prop where
  flying : run.inFlight = some inFlight
  present : run.active = some active
  token : inFlight.token = dispatch.token
  latest : dispatch.token = ⟨run.id, run.sequence⟩
  underway : active.progress = .single true ∨
    ∃ loop, active.progress = .looping loop ∧ loop.ahead ≠ []

theorem awaits_of_ready {evaluator : Evaluator} {run : Run}
    {active sender : ActiveStep} {asked : Log} {scope : DispatchScope}
    {iteration : Option Iteration}
    (ready : Ready evaluator run active asked sender scope iteration) :
    ∃ inFlight,
      Awaits (run.send sender scope iteration).1
        (run.send sender scope iteration).2 inFlight sender := by
  refine ⟨_, rfl, rfl, rfl, rfl, ?_⟩
  cases ready with
  | once fresh => exact .inl rfl
  | item looping items bound unguarded =>
      refine .inr ⟨_, looping, ?_⟩
      rw [items]
      exact List.cons_ne_nil _ _
  | guardedItem looping items bound guarded answered accepted =>
      refine .inr ⟨_, looping, ?_⟩
      rw [items]
      exact List.cons_ne_nil _ _

theorem Reaches.awaits {evaluator : Evaluator} {first run : Run} {log : Log}
    {dispatch : Dispatch}
    (reached : Reaches evaluator first .working log run (.waiting dispatch)) :
    ∃ inFlight active, Awaits run dispatch inFlight active := by
  cases reached with
  | move reached moved =>
      cases moved with
      | sends present ready =>
          rcases awaits_of_ready ready with ⟨inFlight, awaits⟩
          exact ⟨inFlight, _, awaits⟩

end Run

namespace Engine

/-! ## What a call brings -/

/-- A call brings the next dispatch of a run, or its report; only for a reason is
the run canceled. -/
def Brings (evaluator : Evaluator) (first : Run) (start : Stage) (lastRunId : Nat)
    (canceling : Prop) (traced : Traced (Directive × Engine)) : Prop :=
  (∃ next dispatch errors,
    traced.value = (.dispatch dispatch, ⟨some next, lastRunId, errors⟩) ∧
      Run.Reaches evaluator first start traced.log next (.waiting dispatch)) ∨
  ∃ next ending reason now errors,
    traced.value =
        (.finished (next.report ending reason now), ⟨none, lastRunId, errors⟩) ∧
      (ending = .canceled → canceling) ∧
      Run.Reaches evaluator first start traced.log next (.over ending)

theorem brings_settle {evaluator : Evaluator} {first : Run}
    {traced : Traced Progression}
    (reached : Run.ProgressionReached evaluator first traced) (engine : Engine)
    (now : Int) :
    Brings evaluator first .working engine.lastRunId False
      (engine.settle now traced) := by
  rw [Run.ProgressionReached] at reached
  rw [settle]
  cases came : traced.value with
  | dispatched next dispatch =>
      simp only [came] at reached
      exact .inl ⟨next, dispatch, _, rfl, reached⟩
  | finished next ending =>
      simp only [came] at reached
      exact .inr ⟨next, ending, none, now, _, rfl, reached.1, reached.2⟩

/-- What is brought after moves. -/
theorem Brings.after {evaluator : Evaluator} {first middle : Run}
    {start between : Stage} {lastRunId : Nat} {canceling stricter : Prop}
    {acts : Log} {later traced : Traced (Directive × Engine)}
    (before : Run.Reaches evaluator first start acts middle between)
    (brings : Brings evaluator middle between lastRunId stricter later)
    (weaker : stricter → canceling) (log : traced.log = acts ++ later.log)
    (value : traced.value = later.value) :
    Brings evaluator first start lastRunId canceling traced := by
  rw [Brings, log, value]
  rcases brings with ⟨next, dispatch, errors, equal, reached⟩ |
      ⟨next, ending, reason, now, errors, equal, canceled, reached⟩
  · exact .inl ⟨next, dispatch, errors, equal, before.trans reached⟩
  · exact .inr ⟨next, ending, reason, now, errors, equal,
      fun ended => weaker (canceled ended), before.trans reached⟩

theorem Brings.lastRunId_eq {evaluator : Evaluator} {first : Run} {start : Stage}
    {lastRunId : Nat} {canceling : Prop} {traced : Traced (Directive × Engine)}
    (brings : Brings evaluator first start lastRunId canceling traced) :
    traced.value.2.lastRunId = lastRunId := by
  rcases brings with ⟨next, dispatch, errors, equal, reached⟩ |
      ⟨next, ending, reason, now, errors, equal, canceled, reached⟩
  · rw [equal]
  · rw [equal]

theorem Brings.reaches {evaluator : Evaluator} {first : Run} {start : Stage}
    {lastRunId : Nat} {canceling : Prop} {traced : Traced (Directive × Engine)}
    (brings : Brings evaluator first start lastRunId canceling traced) :
    ∃ next stage, Run.Reaches evaluator first start traced.log next stage := by
  rcases brings with ⟨next, dispatch, errors, equal, reached⟩ |
      ⟨next, ending, reason, now, errors, equal, canceled, reached⟩
  · exact ⟨next, _, reached⟩
  · exact ⟨next, _, reached⟩

/-- While a run is under way, nothing is started. -/
theorem start_of_running {engine : Engine} {run : Run}
    (running : engine.run = some run) (evaluator : Evaluator)
    (request : RunRequest) (now : Int) :
    engine.start evaluator request now = pure (.error .runActive, engine) := by
  rw [start, running]

/-- A workflow with a faulty step is not started. -/
theorem start_of_unresolved {engine : Engine} {request : RunRequest}
    {error : ResolutionError} (free : engine.run = none)
    (unresolved : request.workflow.resolve request.document = .error error)
    (evaluator : Evaluator) (now : Int) :
    engine.start evaluator request now =
      pure (.error (.unresolved error), engine) := by
  rw [start, free, unresolved]

theorem brings_start {engine : Engine} {request : RunRequest}
    {workflow : ResolvedWorkflow} (free : engine.run = none)
    (resolved : request.workflow.resolve request.document = .ok workflow)
    (evaluator : Evaluator) (now : Int) :
    ∃ traced : Traced (Directive × Engine),
      engine.start evaluator request now =
          ⟨traced.log, .ok traced.value.1, traced.value.2⟩ ∧
        Brings evaluator (engine.beginRun request workflow now) .working
          (engine.lastRunId + 1) False traced := by
  have reached :=
    Run.progressionReached_resume evaluator (engine.beginRun request workflow now)
      rfl
  refine ⟨_, ?_,
    brings_settle reached { engine with lastRunId := engine.lastRunId + 1 } now⟩
  simp only [start, free, resolved, bind, Traced.andThen, pure, Traced.of,
    List.append_nil]
  rfl

/-- Without a run every answer is stale. -/
theorem respond_of_free {engine : Engine} (free : engine.run = none)
    (evaluator : Evaluator) (token : Token) (outcome : Outcome) (now : Int) :
    engine.respond evaluator token outcome now = pure (.stale, engine) := by
  rw [respond, free]

/-- Every answer but the awaited one is stale. -/
theorem respond_of_other {engine : Engine} {run : Run} {dispatch : Dispatch}
    {inFlight : InFlight} {active : ActiveStep} {token : Token}
    (running : engine.run = some run)
    (awaits : run.Awaits dispatch inFlight active) (other : dispatch.token ≠ token)
    (evaluator : Evaluator) (outcome : Outcome) (now : Int) :
    engine.respond evaluator token outcome now = pure (.stale, engine) := by
  rw [respond]
  simp only [running, awaits.flying, awaits.present, awaits.token, ne_eq, other,
    not_false_eq_true, if_true]

theorem brings_accept {engine : Engine} {evaluator : Evaluator} {run : Run}
    {active : ActiveStep} {inFlight : InFlight} {result : StepResult}
    {dispatch : Dispatch} (flying : run.inFlight = some inFlight)
    (present : run.active = some active) (outcome : Outcome)
    (answer : Run.answerOf? active inFlight outcome = some result) (now : Int) :
    Brings evaluator run (.waiting dispatch) engine.lastRunId False
      (engine.accept evaluator { run with inFlight := none, active := none } active
        result now) := by
  have yields :
      Run.Yields evaluator run (.waiting dispatch) [] result active.policy
        { run.withResult result with
          active := some active.advance
          inFlight := none } :=
    .answered flying present answer
  rw [accept]
  cases halts : result.isFailure && active.policy.halts with
  | true =>
      refine .inr ⟨run.stoppedBy result, .stopped, none, now, engine.errors, ?_,
        by decide, ?_⟩
      · simp only [Traced.value_bind, Run.value_record, if_true, Traced.value_pure]
        rfl
      · simp only [Traced.log_bind, Run.value_record, Run.log_record, if_true,
          Traced.log_pure]
        exact Run.Move.reaches (.stops yields halts)
  | false =>
      have reached :=
        Run.progressionReached_resume evaluator
          { run.withResult result with
            active := some active.advance
            inFlight := none } rfl
      refine .after (Run.Move.reaches (.goesOn yields halts))
        (brings_settle reached engine now) id ?_ ?_
      · simp only [Traced.log_bind, Run.value_record, Run.log_record]
        rfl
      · simp only [Traced.value_bind, Run.value_record]
        rfl

theorem cancel_of_running {engine : Engine} {run : Run}
    (running : engine.run = some run) (reason : Option String) (now : Int) :
    (engine.cancel reason now).1 = some (run.report .canceled reason now) := by
  rw [cancel, running]

/-- If the client cancels the awaited request, the run ends with what it has. -/
theorem respond_canceled {engine : Engine} {run : Run} {dispatch : Dispatch}
    {inFlight : InFlight} {active : ActiveStep} (running : engine.run = some run)
    (awaits : run.Awaits dispatch inFlight active) (evaluator : Evaluator)
    (now : Int) :
    engine.respond evaluator dispatch.token .canceled now =
      pure (.finished
          (run.report .canceled (some "canceled by the execution client") now),
        { engine with run := none }) := by
  rw [respond]
  simp only [running, awaits.flying, awaits.present, awaits.token, ne_eq, not_true,
    if_false]
  rfl

/-- The awaited answer brings something. -/
theorem brings_respond {engine : Engine} {run : Run} {dispatch : Dispatch}
    {inFlight : InFlight} {active : ActiveStep} (running : engine.run = some run)
    (awaits : run.Awaits dispatch inFlight active) (evaluator : Evaluator)
    (outcome : Outcome) (now : Int) :
    Brings evaluator run (.waiting dispatch) engine.lastRunId (outcome = .canceled)
      (engine.respond evaluator dispatch.token outcome now) := by
  rw [respond]
  simp only [running, awaits.flying, awaits.present, awaits.token, ne_eq, not_true,
    if_false]
  cases outcome with
  | canceled =>
      exact .inr ⟨run, .canceled, _, now, engine.errors, rfl, fun _ => rfl,
        Run.Move.reaches .cancels⟩
  | skipped reason =>
      exact .after .refl
        (brings_accept awaits.flying awaits.present (.skipped reason) rfl now)
        False.elim rfl rfl
  | completed snapshot =>
      exact .after .refl
        (brings_accept awaits.flying awaits.present (.completed snapshot) rfl now)
        False.elim rfl rfl

/-! ## Plays -/

/-- Answers the dispatches of a run one after the other, as long as there are
any. -/
def feed (evaluator : Evaluator) :
    List (Outcome × Int) → Directive × Engine → Traced (Directive × Engine)
  | (outcome, now) :: answers, (.dispatch dispatch, engine) => do
      let reached ← engine.respond evaluator dispatch.token outcome now
      feed evaluator answers reached
  | _, reached => pure reached

/-- Starts a run and answers its dispatches. -/
def play (engine : Engine) (evaluator : Evaluator) (request : RunRequest)
    (now : Int) (answers : List (Outcome × Int)) :
    Traced (Except StartError Directive × Engine) := do
  match ← engine.start evaluator request now with
  | (.error error, engine) => return (.error error, engine)
  | (.ok directive, engine) =>
      let reached ← feed evaluator answers (directive, engine)
      return (.ok reached.1, reached.2)

theorem brings_feed {evaluator : Evaluator} {first : Run} {lastRunId : Nat}
    {canceling : Prop} {traced : Traced (Directive × Engine)}
    (brings : Brings evaluator first .working lastRunId canceling traced)
    (answers : List (Outcome × Int)) :
    Brings evaluator first .working lastRunId
      (canceling ∨ ∃ answer ∈ answers, answer.1 = .canceled)
      (traced >>= feed evaluator answers) := by
  induction answers generalizing traced canceling with
  | nil => exact .after .refl brings Or.inl (List.append_nil _) rfl
  | cons answer answers hypothesis =>
      rcases brings with ⟨next, dispatch, errors, equal, reached⟩ |
          ⟨next, ending, reason, now, errors, equal, canceled, reached⟩
      · rcases reached.awaits with ⟨inFlight, active, awaits⟩
        let answered :=
          (⟨some next, lastRunId, errors⟩ : Engine).respond evaluator
            dispatch.token answer.1 answer.2
        have brought :
            Brings evaluator first .working lastRunId (answer.1 = .canceled)
              ⟨traced.log ++ answered.log, answered.value⟩ :=
          .after reached (brings_respond rfl awaits evaluator answer.1 answer.2) id
            rfl rfl
        refine .after .refl (hypothesis brought) ?_ ?_ ?_
        · rintro (canceled | ⟨other, member, canceled⟩)
          · exact .inr ⟨answer, List.mem_cons_self, canceled⟩
          · exact .inr ⟨other, List.mem_cons_of_mem _ member, canceled⟩
        · simp only [Traced.log_bind, equal, feed, List.append_assoc,
            List.nil_append]
          rfl
        · simp only [Traced.value_bind, equal, feed]
          rfl
      · have idle :
            feed evaluator (answer :: answers) traced.value =
              pure traced.value := by
          rw [equal]
          rfl
        refine .inr ⟨next, ending, reason, now, errors, ?_,
          fun ended => .inl (canceled ended), ?_⟩
        · rw [Traced.value_bind, idle]
          exact equal
        · rw [Traced.log_bind, idle, Traced.log_pure, List.append_nil]
          exact reached

/-- What a play brings is reached by the moves of its run. -/
theorem brings_play {engine : Engine} {request : RunRequest}
    {workflow : ResolvedWorkflow} (free : engine.run = none)
    (resolved : request.workflow.resolve request.document = .ok workflow)
    (evaluator : Evaluator) (now : Int) (answers : List (Outcome × Int)) :
    ∃ traced : Traced (Directive × Engine),
      engine.play evaluator request now answers =
          ⟨traced.log, .ok traced.value.1, traced.value.2⟩ ∧
        Brings evaluator (engine.beginRun request workflow now) .working
          (engine.lastRunId + 1) (∃ answer ∈ answers, answer.1 = .canceled)
          traced := by
  rcases brings_start free resolved evaluator now with ⟨started, equal, brings⟩
  refine ⟨_, ?_,
    .after .refl (brings_feed brings answers) (Or.resolve_left · id) rfl rfl⟩
  rw [play, equal]
  simp only [bind, Traced.andThen, pure, Traced.of, List.append_nil]

end Engine

/-! ## Sessions -/

/-- A call of an engine. -/
inductive Call where
  /-- A run is to be started. -/
  | start (request : RunRequest) (now : Int)
  | respond (token : Token) (outcome : Outcome) (now : Int)
  /-- The run is to be canceled. -/
  | cancel (reason : Option String) (now : Int)
  | drain

/-- The answer of an engine to a call. -/
inductive Answer where
  | directive (directive : Directive)
  | refused (error : StartError)
  /-- The report of the canceled run, if there was one. -/
  | canceled (report : Option Report)
  | drained (errors : List String)

/-- The report that an answer gives. -/
def Answer.report? : Answer → Option Report
  | directive (.finished report) => some report
  | canceled report => report
  | _ => none

namespace Engine

/-- Takes a call. -/
def perform (evaluator : Evaluator) (engine : Engine) : Call → Answer × Engine
  | .start request now =>
      match (engine.start evaluator request now).value with
      | (.ok directive, engine) => (.directive directive, engine)
      | (.error error, engine) => (.refused error, engine)
  | .respond token outcome now =>
      let answered := (engine.respond evaluator token outcome now).value
      (.directive answered.1, answered.2)
  | .cancel reason now =>
      let ended := engine.cancel reason now
      (.canceled ended.1, ended.2)
  | .drain =>
      let drained := engine.drainErrors
      (.drained drained.1, drained.2)

/-- The calls with their answers, the latest last, and the engine after them. -/
def session (evaluator : Evaluator) (calls : List Call) :
    List (Call × Answer) × Engine :=
  calls.foldl
    (fun reached call =>
      let performed := reached.2.perform evaluator call
      (reached.1 ++ [(call, performed.1)], performed.2))
    ([], .idle)

theorem session_concat (evaluator : Evaluator) (calls : List Call) (call : Call) :
    session evaluator (calls ++ [call]) =
      ((session evaluator calls).1 ++
          [(call, ((session evaluator calls).2.perform evaluator call).1)],
        ((session evaluator calls).2.perform evaluator call).2) := by
  rw [session, List.foldl_append]
  rfl

/-- The run of the engine, if there is one, is the one that was started last, and
it waits for the answer to a dispatch that its moves have led to. -/
def Standing (evaluator : Evaluator) (engine : Engine) : Prop :=
  ∀ run, engine.run = some run → run.id = engine.lastRunId ∧
    ∃ request first log dispatch, Run.Begins request first ∧
      Run.Reaches evaluator first .working log run (.waiting dispatch)

/-- The answer to a call that goes on with a run leaves the engine standing. -/
theorem Brings.standing {evaluator : Evaluator} {request : RunRequest}
    {first run : Run} {stage : Stage} {lastRunId : Nat} {canceling : Prop}
    {before : Log} {traced : Traced (Directive × Engine)}
    (begins : Run.Begins request first) (number : first.id = lastRunId)
    (reached : Run.Reaches evaluator first .working before run stage)
    (brings : Brings evaluator run stage lastRunId canceling traced) :
    Standing evaluator traced.value.2 := by
  intro later running
  rcases brings with ⟨next, dispatch, errors, equal, further⟩ |
      ⟨next, ending, reason, now, errors, equal, canceled, further⟩
  · rw [equal] at running ⊢
    obtain rfl : next = later := Option.some.inj running
    have whole := reached.trans further
    exact ⟨whole.id_eq.trans number, request, first, _, dispatch, begins, whole⟩
  · rw [equal] at running
    exact (Option.some_ne_none later running.symm).elim

theorem standing_perform {evaluator : Evaluator} {engine : Engine}
    (standing : Standing evaluator engine) (call : Call) :
    Standing evaluator (engine.perform evaluator call).2 := by
  cases call with
  | start request now =>
      cases running : engine.run with
      | some run =>
          simp only [perform, start_of_running running, Traced.value_pure]
          exact standing
      | none =>
          cases resolved : request.workflow.resolve request.document with
          | error error =>
              simp only [perform, start_of_unresolved running resolved,
                Traced.value_pure]
              exact standing
          | ok workflow =>
              rcases brings_start running resolved evaluator now with
                ⟨traced, equal, brings⟩
              simp only [perform, equal]
              exact brings.standing (.beginRun resolved now) rfl .refl
  | respond token outcome now =>
      cases running : engine.run with
      | none =>
          simp only [perform, respond_of_free running, Traced.value_pure]
          exact standing
      | some run =>
          rcases standing run running with
            ⟨number, request, first, log, dispatch, begins, reached⟩
          rcases reached.awaits with ⟨inFlight, active, awaits⟩
          by_cases known : dispatch.token = token
          · subst known
            have brings := brings_respond running awaits evaluator outcome now
            exact brings.standing begins (reached.id_eq.symm.trans number) reached
          · simp only [perform, respond_of_other running awaits known,
              Traced.value_pure]
            exact standing
  | cancel reason now =>
      intro run running
      have ended : (engine.cancel reason now).2.run = none := by
        rw [cancel]
        cases before : engine.run with
        | none => exact before
        | some run => rfl
      exact (Option.some_ne_none run (running.symm.trans ended)).elim
  | drain => exact standing

/-- Whatever the calls are, the engine after them is standing. -/
theorem standing_session (evaluator : Evaluator) (calls : List Call) :
    Standing evaluator (session evaluator calls).2 := by
  induction calls using List.reverseRecOn with
  | nil =>
      intro run running
      exact (Option.some_ne_none run running.symm).elim
  | append_singleton calls call hypothesis =>
      rw [session_concat]
      exact standing_perform hypothesis call

/-- In a session no request is under way without the step that has sent it: there
is none for `respond` to drop. -/
theorem sender_session {evaluator : Evaluator} {calls : List Call} {run : Run}
    (running : (session evaluator calls).2.run = some run) :
    ∃ inFlight active,
      run.inFlight = some inFlight ∧ run.active = some active := by
  rcases standing_session evaluator calls run running with
    ⟨number, request, first, log, dispatch, begins, reached⟩
  rcases reached.awaits with ⟨inFlight, active, awaits⟩
  exact ⟨inFlight, active, awaits.flying, awaits.present⟩

/-- A report is that of a run which moves have led to its end. -/
def Reported (evaluator : Evaluator) (report : Report) : Prop :=
  ∃ request first log run ending reason now, Run.Begins request first ∧
    Run.Reaches evaluator first .working log run (.over ending) ∧
      report = run.report ending reason now

theorem Brings.reported {evaluator : Evaluator} {request : RunRequest}
    {first run : Run} {stage : Stage} {lastRunId : Nat} {canceling : Prop}
    {before : Log} {traced : Traced (Directive × Engine)} {report : Report}
    (begins : Run.Begins request first)
    (reached : Run.Reaches evaluator first .working before run stage)
    (brings : Brings evaluator run stage lastRunId canceling traced)
    (given : (Answer.directive traced.value.1).report? = some report) :
    Reported evaluator report := by
  rcases brings with ⟨next, dispatch, errors, equal, further⟩ |
      ⟨next, ending, reason, now, errors, equal, canceled, further⟩
  · rw [equal] at given
    cases given
  · rw [equal] at given
    rcases Option.some.inj given with rfl
    exact ⟨request, first, _, next, ending, reason, now, begins,
      reached.trans further, rfl⟩

theorem reported_perform {evaluator : Evaluator} {engine : Engine}
    (standing : Standing evaluator engine) (call : Call) {report : Report}
    (given : (engine.perform evaluator call).1.report? = some report) :
    Reported evaluator report := by
  cases call with
  | start request now =>
      cases running : engine.run with
      | some run =>
          simp only [perform, start_of_running running, Traced.value_pure] at given
          cases given
      | none =>
          cases resolved : request.workflow.resolve request.document with
          | error error =>
              simp only [perform, start_of_unresolved running resolved,
                Traced.value_pure] at given
              cases given
          | ok workflow =>
              rcases brings_start running resolved evaluator now with
                ⟨traced, equal, brings⟩
              simp only [perform, equal] at given
              exact brings.reported (.beginRun resolved now) .refl given
  | respond token outcome now =>
      cases running : engine.run with
      | none =>
          simp only [perform, respond_of_free running, Traced.value_pure] at given
          cases given
      | some run =>
          rcases standing run running with
            ⟨number, request, first, log, dispatch, begins, reached⟩
          rcases reached.awaits with ⟨inFlight, active, awaits⟩
          by_cases known : dispatch.token = token
          · subst known
            exact (brings_respond running awaits evaluator outcome now).reported
              begins reached given
          · simp only [perform, respond_of_other running awaits known,
              Traced.value_pure] at given
            cases given
  | cancel reason now =>
      simp only [perform, cancel] at given
      cases running : engine.run with
      | none =>
          rw [running] at given
          cases given
      | some run =>
          rw [running] at given
          rcases Option.some.inj given with rfl
          rcases standing run running with
            ⟨number, request, first, log, dispatch, begins, reached⟩
          exact ⟨request, first, _, run, .canceled, reason, now, begins,
            .move reached .cancels, rfl⟩
  | drain => cases given

/-- Whatever the calls are, every report is that of a run which moves have led to
its end. -/
theorem reported_session (evaluator : Evaluator) (calls : List Call)
    {entry : Call × Answer} (member : entry ∈ (session evaluator calls).1)
    {report : Report} (given : entry.2.report? = some report) :
    Reported evaluator report := by
  induction calls using List.reverseRecOn with
  | nil => exact (List.not_mem_nil member).elim
  | append_singleton calls call hypothesis =>
      rw [session_concat] at member
      rcases List.mem_append.mp member with member | member
      · exact hypothesis member
      · rcases List.mem_singleton.mp member with rfl
        exact reported_perform (standing_session evaluator calls) call given

end Engine

end RequestFlow
