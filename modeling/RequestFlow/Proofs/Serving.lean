import RequestFlow.Proofs.Blocks
import RequestFlow.Proofs.Dispatching

/-!
# One run among the calls of an engine

While a run is under way its engine takes any calls: answers to whatever dispatch,
late and repeated ones too, starts of other runs, which it refuses, collections of
errors, and perhaps one that cancels the run.  Main statements: whatever the calls
are, the acts of the engine are those of the moves of the run, which waits for the
answer to its last dispatch or is over with one report; and every error that is
raised is collected once or still to be collected.
-/

namespace RequestFlow

open Condition

namespace Answer

/-- The errors that an answer hands over. -/
def collected : Answer → List String
  | drained errors => errors
  | _ => []

end Answer

/-- The errors that were collected. -/
def collectedBy (past : List (Call × Answer)) : List String :=
  past.flatMap fun entry => entry.2.collected

/-- The reports that were given. -/
def reportsOf (past : List (Call × Answer)) : List Report :=
  past.filterMap fun entry => entry.2.report?

/-- The call has started a run. -/
def launches : Call × Answer → Bool
  | (.start _ _, .directive _) => true
  | _ => false

theorem collectedBy_concat (past : List (Call × Answer)) (call : Call)
    (answer : Answer) :
    collectedBy (past ++ [(call, answer)]) =
      collectedBy past ++ answer.collected := by
  rw [collectedBy, List.flatMap_append, List.flatMap_singleton]
  rfl

theorem reportsOf_concat (past : List (Call × Answer)) (call : Call)
    (answer : Answer) :
    reportsOf (past ++ [(call, answer)]) =
      reportsOf past ++ answer.report?.toList := by
  rw [reportsOf, List.filterMap_append]
  cases given : answer.report? <;> simp [reportsOf, given]

namespace Engine

/-- The acts with which an engine takes a call. -/
def acts (evaluator : Evaluator) (engine : Engine) : Call → Log
  | .start request now => (engine.start evaluator request now).log
  | .respond token outcome now => (engine.respond evaluator token outcome now).log
  | .cancel _ _ => []
  | .drain => []

/-- What calls have brought. -/
structure Service where
  /-- The acts of the engine. -/
  log : Log
  /-- The calls with their answers, the latest last. -/
  past : List (Call × Answer)
  /-- The engine after the calls. -/
  engine : Engine

/-- Takes one more call. -/
def Service.take (evaluator : Evaluator) (service : Service) (call : Call) :
    Service :=
  let performed := service.engine.perform evaluator call
  { log := service.log ++ service.engine.acts evaluator call
    past := service.past ++ [(call, performed.1)]
    engine := performed.2 }

/-- Takes calls one after the other. -/
def serve (evaluator : Evaluator) (engine : Engine) (calls : List Call) :
    Service :=
  calls.foldl (Service.take evaluator) ⟨[], [], engine⟩

theorem serve_concat (evaluator : Evaluator) (engine : Engine) (calls : List Call)
    (call : Call) :
    engine.serve evaluator (calls ++ [call]) =
      (engine.serve evaluator calls).take evaluator call := by
  rw [serve, List.foldl_append]
  rfl

/-- Every call is answered, in order. -/
theorem calls_of_serve (evaluator : Evaluator) (engine : Engine)
    (calls : List Call) :
    (engine.serve evaluator calls).past.map Prod.fst = calls := by
  induction calls using List.reverseRecOn with
  | nil => rfl
  | append_singleton calls call hypothesis =>
      rw [serve_concat, Service.take, List.map_append, hypothesis]
      rfl

/-! ## Errors -/

/-- A call hands over what was to be collected, or leaves it and adds what it
raises. -/
theorem collected_perform (evaluator : Evaluator) (engine : Engine) (call : Call) :
    (engine.perform evaluator call).1.collected ++
        (engine.perform evaluator call).2.errors =
      engine.errors ++ (engine.acts evaluator call).errors := by
  cases call with
  | start request now =>
      cases running : engine.run with
      | some run =>
          simp only [perform, acts, start_of_running running, Traced.value_pure,
            Traced.log_pure]
          exact (List.append_nil _).symm
      | none =>
          cases resolved : request.workflow.resolve request.document with
          | error error =>
              simp only [perform, acts, start_of_unresolved running resolved,
                Traced.value_pure, Traced.log_pure]
              exact (List.append_nil _).symm
          | ok workflow =>
              have errors := errors_of_start running resolved evaluator now
              rcases brings_start running resolved evaluator now with
                ⟨traced, equal, brings⟩
              rw [equal] at errors
              simp only [perform, acts, equal]
              exact errors
  | respond token outcome now =>
      exact errors_of_respond engine evaluator token outcome now
  | cancel reason now =>
      simp only [perform, acts, cancel]
      cases engine.run <;> exact (List.append_nil _).symm
  | drain => rfl

/-- Whatever the calls are, every error that is raised is collected once or still
to be collected. -/
theorem collected_serve (evaluator : Evaluator) (engine : Engine)
    (calls : List Call) :
    let service := engine.serve evaluator calls
    collectedBy service.past ++ service.engine.errors =
      engine.errors ++ service.log.errors := by
  induction calls using List.reverseRecOn with
  | nil => exact (List.append_nil _).symm
  | append_singleton calls call hypothesis =>
      rw [serve_concat]
      simp only [Service.take]
      rw [collectedBy_concat, List.append_assoc, collected_perform,
        ← List.append_assoc, hypothesis, Log.errors_append, List.append_assoc]

/-! ## The run -/

/-- The calls have served one run: it waits for the answer to a dispatch, or it is
over and its report was given. -/
inductive Service.Serves (evaluator : Evaluator) (first : Run)
    (service : Service) : Prop where
  | waiting {run : Run} {dispatch : Dispatch}
      (running : service.engine.run = some run)
      (unreported : reportsOf service.past = [])
      (reached :
        Run.Reaches evaluator first .working service.log run (.waiting dispatch))
  | finished {run : Run} {ending : RunEnd} {reason : Option String} {now : Int}
      (free : service.engine.run = none)
      (reported : reportsOf service.past = [run.report ending reason now])
      (reached :
        Run.Reaches evaluator first .working service.log run (.over ending))

section Runs

variable {evaluator : Evaluator} {first : Run} {service : Service}

/-- What serves a run has come somewhere with it. -/
theorem Service.Serves.reached (serves : service.Serves evaluator first) :
    ∃ run stage, Run.Reaches evaluator first .working service.log run stage := by
  cases serves with
  | waiting running unreported reached => exact ⟨_, _, reached⟩
  | finished free reported reached => exact ⟨_, _, reached⟩

/-- A call that leaves the run as it is and gives no report. -/
theorem Service.Serves.unmoved (serves : service.Serves evaluator first)
    {call : Call} (silent : service.engine.acts evaluator call = [])
    (unreported : (service.engine.perform evaluator call).1.report? = none)
    (same : (service.engine.perform evaluator call).2.run = service.engine.run) :
    (service.take evaluator call).Serves evaluator first := by
  have log : (service.take evaluator call).log = service.log := by
    simp only [take, silent, List.append_nil]
  have reports :
      reportsOf (service.take evaluator call).past = reportsOf service.past := by
    simp only [take, reportsOf_concat, unreported, Option.toList_none,
      List.append_nil]
  cases serves with
  | waiting running unreported reached =>
      exact .waiting (same.trans running) (reports.trans unreported)
        (log.symm ▸ reached)
  | finished free reported reached =>
      exact .finished (same.trans free) (reports.trans reported)
        (log.symm ▸ reached)

/-- A call that brings the next dispatch of the run, or its report. -/
theorem Brings.serves {call : Call} {run : Run} {stage : Stage} {lastRunId : Nat}
    {canceling : Prop} {traced : Traced (Directive × Engine)}
    (brings : Brings evaluator run stage lastRunId canceling traced)
    (reached : Run.Reaches evaluator first .working service.log run stage)
    (unreported : reportsOf service.past = [])
    (acts : service.engine.acts evaluator call = traced.log)
    (performed :
      service.engine.perform evaluator call =
        (.directive traced.value.1, traced.value.2)) :
    (service.take evaluator call).Serves evaluator first := by
  have log : (service.take evaluator call).log = service.log ++ traced.log := by
    simp only [Service.take, acts]
  have reports : reportsOf (service.take evaluator call).past =
      (Answer.directive traced.value.1).report?.toList := by
    simp only [Service.take, reportsOf_concat, unreported, performed,
      List.nil_append]
  have engine : (service.take evaluator call).engine = traced.value.2 := by
    simp only [Service.take, performed]
  rcases brings with ⟨next, dispatch, errors, value, further⟩ |
      ⟨next, ending, reason, now, errors, value, canceled, further⟩
  · refine .waiting ?_ ?_ (log.symm ▸ reached.trans further)
    · rw [engine, value]
    · rw [reports, value]
      rfl
  · have reported : reportsOf (service.take evaluator call).past =
        [next.report ending reason now] := by
      rw [reports, value]
      rfl
    refine .finished ?_ reported (log.symm ▸ reached.trans further)
    rw [engine, value]

theorem serves_start {engine : Engine} {request : RunRequest}
    {workflow : ResolvedWorkflow} (free : engine.run = none)
    (resolved : request.workflow.resolve request.document = .ok workflow)
    (evaluator : Evaluator) (now : Int) :
    (engine.serve evaluator [.start request now]).Serves evaluator
      (engine.beginRun request workflow now) := by
  rcases brings_start free resolved evaluator now with ⟨traced, equal, brings⟩
  show ((⟨[], [], engine⟩ : Service).take evaluator (.start request now)).Serves _
    _
  refine brings.serves .refl rfl ?_ ?_
  · simp only [acts, equal]
  · simp only [perform, equal]

theorem Service.Serves.take (serves : service.Serves evaluator first) (call : Call)
    (other : launches (call, (service.engine.perform evaluator call).1) = false) :
    (service.take evaluator call).Serves evaluator first := by
  cases call with
  | start another now =>
      cases running : service.engine.run with
      | some run =>
          refine
            serves.unmoved ?_ ?_ ?_ <;>
              simp only [Engine.acts, perform, start_of_running running,
                Traced.value_pure, Traced.log_pure, Answer.report?]
      | none =>
          cases resolved : another.workflow.resolve another.document with
          | error error =>
              refine
                serves.unmoved ?_ ?_ ?_ <;>
                  simp only [Engine.acts, perform,
                    start_of_unresolved running resolved, Traced.value_pure,
                    Traced.log_pure, Answer.report?]
          | ok workflow =>
              rcases brings_start running resolved evaluator now with
                ⟨traced, equal, brings⟩
              simp only [perform, equal] at other
              cases other
  | respond token outcome now =>
      cases serves with
      | finished free reported reached =>
          refine
            Service.Serves.unmoved (.finished free reported reached) ?_ ?_ ?_ <;>
              simp only [Engine.acts, perform, respond_of_free free,
                Traced.value_pure, Traced.log_pure, Answer.report?]
      | @waiting run dispatch running unreported reached =>
          rcases reached.awaits with ⟨inFlight, active, awaits⟩
          by_cases known : dispatch.token = token
          · subst known
            exact (brings_respond running awaits evaluator outcome now).serves
              reached unreported rfl rfl
          · refine
              Service.Serves.unmoved (.waiting running unreported reached) ?_ ?_
                  ?_ <;>
                simp only [Engine.acts, perform,
                  respond_of_other running awaits known, Traced.value_pure,
                  Traced.log_pure, Answer.report?]
  | cancel reason now =>
      cases serves with
      | finished free reported reached =>
          refine
            Service.Serves.unmoved (.finished free reported reached) ?_ ?_ ?_ <;>
              simp only [Engine.acts, perform, cancel, free, Answer.report?]
      | @waiting run dispatch running unreported reached =>
          have reported :
              reportsOf (service.take evaluator (.cancel reason now)).past =
                [run.report .canceled reason now] := by
            simp only [Service.take, reportsOf_concat, unreported, perform, cancel,
              running, Answer.report?, List.nil_append, Option.toList_some]
          refine .finished ?_ reported (.move reached .cancels)
          simp only [Service.take, perform, cancel, running]
  | drain => exact serves.unmoved rfl rfl rfl

/-- Whatever the calls after a start are, as long as they start no other run, they
serve the one that was started. -/
theorem serves_run {engine : Engine} {request : RunRequest}
    {workflow : ResolvedWorkflow} (free : engine.run = none)
    (resolved : request.workflow.resolve request.document = .ok workflow)
    (evaluator : Evaluator) (now : Int) {calls : List Call}
    (alone :
      (engine.serve evaluator (.start request now :: calls)).past.tail.any
          launches = false) :
    (engine.serve evaluator (.start request now :: calls)).Serves evaluator
      (engine.beginRun request workflow now) := by
  induction calls using List.reverseRecOn with
  | nil => exact serves_start free resolved evaluator now
  | append_singleton calls call hypothesis =>
      rw [← List.cons_append, serve_concat] at alone ⊢
      let served := engine.serve evaluator (.start request now :: calls)
      have there : served.past ≠ [] := by
        intro empty
        have calls := calls_of_serve evaluator engine (.start request now :: calls)
        rw [show (engine.serve evaluator _).past = _ from empty] at calls
        cases calls
      have split : (served.take evaluator call).past.tail =
          served.past.tail ++ [(call, (served.engine.perform evaluator call).1)] :=
        List.tail_append_of_ne_nil there
      rw [split, List.any_append, Bool.or_eq_false_iff] at alone
      refine (hypothesis alone.1).take call ?_
      exact (Bool.or_false _).symm.trans alone.2

end Runs

end Engine

end RequestFlow
