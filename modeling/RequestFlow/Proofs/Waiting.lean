import RequestFlow.Proofs.Position

/-!
# An engine at rest

Between two calls an engine either has no run, or its run waits for the answer to
one request, which the current step has sent.  Main statement: after any calls the
engine is at rest in this sense, an answer to the awaited request always leads on,
and leaves less work, and a run whose requests are all answered comes to its end.
-/

namespace RequestFlow

open Condition

/-- A run that waits: its request is under way, was sent last, and belongs to the
current step, of which something is still to do. -/
structure Run.Waits (run : Run) (inFlight : InFlight) (active : ActiveStep) :
    Prop where
  flying : run.inFlight = some inFlight
  present : run.active = some active
  token : inFlight.token = ⟨run.id, run.sequence⟩
  stepIndex : active.stepIndex = run.stepIndex
  within : run.stepIndex < run.workflow.totalSteps
  underway : active.progress = .single true ∨
    ∃ loop, active.progress = .looping loop ∧ loop.done < loop.size

theorem Run.Reaches.waits {evaluator : Evaluator} {request : RunRequest}
    {first run : Run} {log : Log} {dispatch : Dispatch}
    (begins : Run.Begins request first)
    (reached : Run.Reaches evaluator first .working log run (.waiting dispatch)) :
    ∃ inFlight active,
      run.Waits inFlight active ∧ run.Awaits dispatch inFlight active := by
  rcases reached.awaits with ⟨inFlight, active, awaits⟩
  rcases (reached.placed begins).current active awaits.present with
      ⟨step, current, stepIndex, bindings⟩
  refine ⟨inFlight, active,
    ⟨awaits.flying, awaits.present, awaits.token.trans awaits.latest, stepIndex,
      Run.stepIndex_lt_of_current current, ?_⟩, awaits⟩
  rcases awaits.underway with single | ⟨loop, looping, ahead⟩
  · exact .inl single
  · exact .inr
      ⟨loop, looping, Nat.lt_add_of_pos_right (List.length_pos_iff.mpr ahead)⟩

namespace Engine

/-- The request under way. -/
def inFlight? (engine : Engine) : Option InFlight :=
  engine.run.bind Run.inFlight

/-- Less work: fewer steps not yet left, or as many and fewer items of the loop to
come. -/
def LessWork : Nat × Nat → Nat × Nat → Prop :=
  Prod.Lex (· < ·) (· < ·)

theorem wellFounded_lessWork : WellFounded LessWork :=
  (Prod.lex Nat.lt_wfRel Nat.lt_wfRel).wf

theorem not_lessWork_self (work : Nat × Nat) : ¬ LessWork work work := by
  intro less
  rcases Prod.lex_def.mp less with fewer | ⟨same, fewer⟩
  · exact Nat.lt_irrefl _ fewer
  · exact Nat.lt_irrefl _ fewer

/-- What holds of an engine between two calls. -/
structure AtRest (evaluator : Evaluator) (engine : Engine) : Prop where
  /-- A run is under way exactly while a request is. -/
  busy : engine.isActive = true ↔ engine.inFlight?.isSome = true
  /-- A run waits for the answer to its request. -/
  waits :
    ∀ run, engine.run = some run → ∃ inFlight active, run.Waits inFlight active
  /-- A run that is started sends a request or is over. -/
  starts :
    ∀ request now directive after,
      (engine.start evaluator request now).value = (.ok directive, after) →
        directive ≠ .stale
  /-- The awaited answer leads to the next request or to the end, and leaves less
  work. -/
  answers :
    ∀ inFlight, engine.inFlight? = some inFlight →
      ∀ outcome now,
        (engine.respond evaluator inFlight.token outcome now).value.1 ≠ .stale ∧
          LessWork
            (engine.respond evaluator inFlight.token outcome now).value.2.work
            engine.work
  /-- Whatever the answers are, only so many of them are awaited until the run is
  over. -/
  finishes :
    ∀ dispatch inFlight,
      engine.inFlight? = some inFlight → inFlight.token = dispatch.token →
        ∀ stream : Nat → Outcome × Int, ∃ count report after,
          (feed evaluator ((List.range count).map stream)
                (.dispatch dispatch, engine)).value =
              (.finished report, after) ∧ after.run = none

theorem Brings.ne_stale {evaluator : Evaluator} {first : Run} {start : Stage}
    {lastRunId : Nat} {canceling : Prop} {traced : Traced (Directive × Engine)}
    (brings : Brings evaluator first start lastRunId canceling traced) :
    traced.value.1 ≠ .stale := by
  rcases brings with ⟨next, dispatch, errors, equal, reached⟩ |
      ⟨next, ending, reason, now, errors, equal, canceled, reached⟩
  · rw [equal]
    rintro ⟨⟩
  · rw [equal]
    rintro ⟨⟩

theorem start_ne_stale {engine after : Engine} {evaluator : Evaluator}
    {request : RunRequest} {now : Int} {directive : Directive}
    (started :
      (engine.start evaluator request now).value = (.ok directive, after)) :
    directive ≠ .stale := by
  cases running : engine.run with
  | some run =>
      rw [start_of_running running, Traced.value_pure] at started
      cases started
  | none =>
      cases resolved : request.workflow.resolve request.document with
      | error error =>
          rw [start_of_unresolved running resolved, Traced.value_pure] at started
          cases started
      | ok workflow =>
          rcases brings_start running resolved evaluator now with
            ⟨traced, equal, brings⟩
          rw [equal] at started
          cases started
          exact brings.ne_stale

/-- The awaited answer leaves less work. -/
theorem lessWork_of_respond {engine : Engine} {run : Run} {dispatch : Dispatch}
    {inFlight : InFlight} {active : ActiveStep} (running : engine.run = some run)
    (awaits : run.Awaits dispatch inFlight active)
    (within : run.stepIndex < run.workflow.totalSteps) (evaluator : Evaluator)
    (outcome : Outcome) (now : Int) :
    LessWork (engine.respond evaluator dispatch.token outcome now).value.2.work
      engine.work := by
  rcases brings_respond running awaits evaluator outcome now with
      ⟨next, later, errors, equal, reached⟩ |
      ⟨next, ending, reason, later, errors, equal, canceled, reached⟩
  · apply work_of_respond
    rw [equal]
  · rw [equal]
    have whole : engine.work = run.work := by
      rw [work, running]
      rfl
    rw [whole]
    exact Prod.Lex.left _ _ (Nat.sub_pos_of_lt within)

/-- The request under way in a standing engine is the one that its run awaits. -/
theorem exists_awaits {evaluator : Evaluator} {engine : Engine}
    {inFlight : InFlight} (standing : Standing evaluator engine)
    (flying : engine.inFlight? = some inFlight) :
    ∃ run request first log dispatch active,
      engine.run = some run ∧ Run.Begins request first ∧
        Run.Reaches evaluator first .working log run (.waiting dispatch) ∧
        run.Waits inFlight active ∧ run.Awaits dispatch inFlight active := by
  rcases Option.bind_eq_some_iff.mp flying with ⟨run, running, present⟩
  rcases standing run running with
    ⟨number, request, first, log, dispatch, begins, reached⟩
  rcases reached.waits begins with ⟨awaited, active, waits, awaits⟩
  rcases Option.some.inj (awaits.flying.symm.trans present) with rfl
  exact ⟨run, request, first, log, dispatch, active, running, begins, reached,
    waits, awaits⟩

/-- A run that waits is over after finitely many answers. -/
theorem exists_finished {evaluator : Evaluator} {engine : Engine}
    (standing : Standing evaluator engine) {dispatch : Dispatch}
    {inFlight : InFlight} (flying : engine.inFlight? = some inFlight)
    (token : inFlight.token = dispatch.token) (stream : Nat → Outcome × Int) :
    ∃ count report after,
      (feed evaluator ((List.range count).map stream)
            (.dispatch dispatch, engine)).value =
          (.finished report, after) ∧ after.run = none := by
  -- by the work that is left, which every answer lessens
  induction left : engine.work using wellFounded_lessWork.induction
    generalizing engine dispatch inFlight stream with
  | _ work hypothesis =>
      rcases exists_awaits standing flying with
        ⟨run, request, first, log, awaited, active, running, begins, reached,
          waits, awaits⟩
      have same : awaited.token = dispatch.token := awaits.token.symm.trans token
      have less :=
        lessWork_of_respond running awaits waits.within evaluator (stream 0).1
          (stream 0).2
      have stands :=
        standing_perform standing
          (.respond awaited.token (stream 0).1 (stream 0).2)
      have later (count : Nat) :
          (feed evaluator ((List.range (count + 1)).map stream)
              (.dispatch dispatch, engine)).value =
            (feed evaluator
              ((List.range count).map fun index => stream (index + 1))
              (engine.respond evaluator awaited.token (stream 0).1
                (stream 0).2).value).value := by
        rw [List.range_succ_eq_map, List.map_cons, List.map_map, feed,
          Traced.value_bind, same]
        rfl
      rw [left] at less
      simp only [perform] at stands
      rcases brings_respond running awaits evaluator (stream 0).1 (stream 0).2 with
          ⟨next, following, errors, equal, further⟩ |
          ⟨next, ending, reason, now, errors, equal, canceled, further⟩
      · rcases (reached.trans further).awaits with ⟨flown, sender, awaitsNext⟩
        rw [equal] at less stands
        obtain ⟨count, report, after, finished, free⟩ :=
          hypothesis _ less stands awaitsNext.flying awaitsNext.token
            (fun index => stream (index + 1)) rfl
        refine ⟨count + 1, report, after, ?_, free⟩
        rw [later count, equal]
        exact finished
      · refine ⟨1, next.report ending reason now, ⟨none, engine.lastRunId, errors⟩,
          ?_, rfl⟩
        rw [later 0, equal]
        rfl

/-- A standing engine is at rest. -/
theorem Standing.atRest {evaluator : Evaluator} {engine : Engine}
    (standing : Standing evaluator engine) : AtRest evaluator engine := by
  have waiting :
      ∀ run,
        engine.run = some run → ∃ inFlight active, run.Waits inFlight active := by
    intro run running
    rcases standing run running with
      ⟨number, request, first, log, dispatch, begins, reached⟩
    rcases reached.waits begins with ⟨inFlight, active, waits, awaits⟩
    exact ⟨inFlight, active, waits⟩
  refine ⟨?_, waiting, fun request now directive after => start_ne_stale, ?_, ?_⟩
  · rw [isActive, inFlight?]
    cases running : engine.run with
    | none => exact Iff.rfl
    | some run =>
        rcases waiting run running with ⟨inFlight, active, waits⟩
        rw [Option.bind_some, waits.flying]
        exact Iff.rfl
  · intro inFlight flying outcome now
    rcases exists_awaits standing flying with
      ⟨run, request, first, log, dispatch, active, running, begins, reached, waits,
        awaits⟩
    rw [awaits.token]
    exact ⟨(brings_respond running awaits evaluator outcome now).ne_stale,
      lessWork_of_respond running awaits waits.within evaluator outcome now⟩
  · intro dispatch inFlight flying token stream
    exact exists_finished standing flying token stream

/-- Whatever the calls are, the engine after them is at rest. -/
theorem atRest_session (evaluator : Evaluator) (calls : List Call) :
    AtRest evaluator (session evaluator calls).2 :=
  (standing_session evaluator calls).atRest

end Engine

end RequestFlow
