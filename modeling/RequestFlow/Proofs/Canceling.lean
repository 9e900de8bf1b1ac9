import RequestFlow.Proofs.Blocks
import RequestFlow.Proofs.Waiting

/-!
# Canceling a run

A run that is canceled reports the step at which this happened.  What is meant is
the step whose request is under way, the one that the status line names; what is
reported is counted from the results that have been recorded.  Main statement: the
report names the step under way exactly if this is the last step, or if every step
before it has left one result and it has left none itself.
-/

namespace RequestFlow

open Condition

/-! ## Results and steps -/

theorem Shape.Fits.one_le_length_block {evaluator : Evaluator} {log : Log}
    {index : Nat} {shape : Shape} (fits : shape.Fits evaluator log index)
    (place : Nat) : 1 ≤ (shape.block place).length := by
  cases shape with
  | single => exact Nat.le_refl 1
  | looped size =>
      rw [block, List.length_map, List.length_range]
      exact ((fits size).mp rfl).1

/-- Blocks that are not empty hold a result for each step, and no more only if
each holds just one. -/
theorem length_le_length_layout {shapes : List Shape}
    (filled : ∀ shape ∈ shapes, ∀ place, 1 ≤ (shape.block place).length)
    (first : Nat) :
    shapes.length ≤ (layout first shapes).length ∧
      ((layout first shapes).length = shapes.length →
        (layout first shapes).map Prod.fst = List.range' first shapes.length) := by
  induction shapes generalizing first with
  | nil => exact ⟨Nat.le_refl 0, fun _ => rfl⟩
  | cons shape shapes hypothesis =>
      have one := filled shape List.mem_cons_self first
      rcases hypothesis
          (fun other member => filled other (List.mem_cons_of_mem _ member))
          (first + 1) with
        ⟨more, each⟩
      simp only [layout, List.length_append, List.length_cons]
      constructor
      · omega
      · intro equal
        have single : (shape.block first).length = 1 := by omega
        rcases List.length_eq_one_iff.mp single with ⟨place, only⟩
        have member : place ∈ shape.block first := by
          rw [only]
          exact List.mem_singleton_self place
        have index : place.1 = first := Shape.fst_of_mem_block member
        rw [List.map_append, each (by omega), only, List.range'_succ,
          List.map_singleton, index]
        rfl

namespace Run

/-- There is a result for each step that is left, and no further one exactly if
these results are one for each step. -/
theorem Laid.stepIndex_le {evaluator : Evaluator} {run : Run} {stage : Stage}
    {log : Log} {shapes : List Shape} (laid : Laid evaluator run stage log shapes)
    {active : ActiveStep} (present : run.active = some active) :
    run.stepIndex ≤ run.results.length ∧
      (run.results.length = run.stepIndex ↔
        run.results.map StepResult.stepIndex = List.range run.stepIndex) := by
  have filled : ∀ shape ∈ shapes, ∀ place, 1 ≤ (shape.block place).length := by
    intro shape member
    rcases List.getElem?_of_mem member with ⟨index, there⟩
    exact (laid.fits index shape there).one_le_length_block
  rcases length_le_length_layout filled 0 with ⟨more, each⟩
  have there := (laid.amid active present).there
  rw [← laid.results] at there
  have length := congrArg List.length there
  rw [List.length_map, List.length_append] at length
  rw [← laid.length]
  refine ⟨by omega, ?_, ?_⟩
  · intro equal
    have nothing :
        (active.progress.shape.block shapes.length).take
            (active.progress.recorded stage) = [] := by
      apply List.eq_nil_of_length_eq_zero
      omega
    rw [nothing, List.append_nil] at there
    have indices := congrArg (List.map Prod.fst) there
    rw [List.map_map, each (by omega), ← List.range_eq_range'] at indices
    exact indices
  · intro indices
    have same := congrArg List.length indices
    rw [List.length_map, List.length_range] at same
    exact same

/-- While a run waits, the line that it shows is that of the active step. -/
theorem Reaches.statusLine_eq {evaluator : Evaluator} {first run : Run} {log : Log}
    {dispatch : Dispatch} {inFlight : InFlight} {active : ActiveStep}
    (reached : Reaches evaluator first .working log run (.waiting dispatch))
    (flying : run.inFlight = some inFlight) (present : run.active = some active) :
    inFlight.statusLine =
      statusLine active.stepIndex run.workflow.totalSteps
        (active.displayLabel inFlight.iteration) := by
  cases reached with
  | move reached moved =>
      cases moved with
      | sends sending ready =>
          rcases Option.some.inj flying with rfl
          rcases Option.some.inj present with rfl
          rfl

end Run

/-! ## Reports -/

/-- The summary of a run that is canceled at a step. -/
def cancelSummary (stepIndex totalSteps : Nat) : String :=
  s!"canceled at step {stepIndex + 1}/{totalSteps}"

theorem cancelSummary_inj {left right totalSteps : Nat} :
    cancelSummary left totalSteps = cancelSummary right totalSteps ↔
      left = right := by
  constructor
  · intro equal
    unfold cancelSummary at equal
    rw [String.append_left_inj, String.append_left_inj, String.append_right_inj]
      at equal
    have digits : Nat.toDigits 10 (left + 1) = Nat.toDigits 10 (right + 1) := by
      rw [← String.ofList_inj, ← Nat.repr_eq_ofList_toDigits,
        ← Nat.repr_eq_ofList_toDigits]
      exact equal
    have read := congrArg (Nat.ofDigitChars 10 · 0) digits
    simp only [Nat.ofDigitChars_ten_toDigits] at read
    exact Nat.succ.inj read
  · rintro rfl
    rfl

theorem summarize_canceled (results : List StepResult) {totalSteps : Nat}
    (some : 0 < totalSteps) :
    summarize results totalSteps .canceled =
      cancelSummary (min results.length (totalSteps - 1)) totalSteps := by
  have place : min (results.length + 1) (max totalSteps 1) =
      min results.length (totalSteps - 1) + 1 := by
    omega
  unfold summarize cancelSummary
  rw [← place]

namespace Engine

/-- What is reported if a run is canceled while a step has its request under
way. -/
structure CancelsIn (engine : Engine) (run : Run) (inFlight : InFlight)
    (active : ActiveStep) : Prop where
  waits : run.Waits inFlight active
  /-- The step under way is the one that is shown. -/
  shown :
    engine.statusLine? =
      some (statusLine active.stepIndex run.workflow.totalSteps
        (active.displayLabel inFlight.iteration))
  /-- The step is counted from the results, and none before the one under way is
  reported. -/
  reported :
    ∀ reason now, ∃ report stepIndex, (engine.cancel reason now).1 = some report ∧
      report.summary = cancelSummary stepIndex run.workflow.totalSteps ∧
      stepIndex = min run.results.length (run.workflow.totalSteps - 1) ∧
      active.stepIndex ≤ stepIndex
  /-- The step under way is reported if it is the last one, or if the results are
  one for each step before it. -/
  exact_iff : ∀ reason now report, (engine.cancel reason now).1 = some report →
    (report.summary = cancelSummary active.stepIndex run.workflow.totalSteps ↔
      active.stepIndex + 1 = run.workflow.totalSteps ∨
        run.results.map StepResult.stepIndex = List.range active.stepIndex)

theorem Standing.cancelsIn {evaluator : Evaluator} {engine : Engine}
    (standing : Standing evaluator engine) {run : Run}
    (running : engine.run = some run) :
    ∃ inFlight active, CancelsIn engine run inFlight active := by
  rcases standing run running with
    ⟨number, request, first, log, dispatch, begins, reached⟩
  rcases reached.waits begins with ⟨inFlight, active, waits, awaits⟩
  rcases reached.accounted begins with ⟨shapes, laid⟩
  rcases laid.stepIndex_le waits.present with ⟨behind, single⟩
  rw [← waits.stepIndex] at behind single
  have within := waits.within
  rw [← waits.stepIndex] at within
  have summary (reason : Option String) (now : Int) :
      (run.report .canceled reason now).summary =
        cancelSummary (min run.results.length (run.workflow.totalSteps - 1))
          run.workflow.totalSteps :=
    summarize_canceled run.results (Nat.zero_lt_of_lt within)
  refine ⟨inFlight, active, waits, ?_, ?_, ?_⟩
  · rw [statusLine?, running, Option.bind_some, waits.flying, Option.map_some,
      reached.statusLine_eq waits.flying waits.present]
  · intro reason now
    exact ⟨_, _, cancel_of_running running reason now, summary reason now, rfl,
      by omega⟩
  · intro reason now report canceled
    rw [cancel_of_running running] at canceled
    rcases Option.some.inj canceled with rfl
    rw [summary, cancelSummary_inj, ← single]
    omega

/-- Whatever the calls were, canceling the run reports the step under way exactly
if this is the last step, or if every step before it has left one result and it
has left none itself. -/
theorem cancel_session (evaluator : Evaluator) (calls : List Call) :
    match (session evaluator calls).2.run with
    | none =>
        ∀ reason now, ((session evaluator calls).2.cancel reason now).1 = none
    | some run =>
        ∃ inFlight active,
          CancelsIn (session evaluator calls).2 run inFlight active := by
  cases running : (session evaluator calls).2.run with
  | none =>
      intro reason now
      rw [cancel, running]
  | some run => exact (standing_session evaluator calls).cancelsIn running

end Engine

/-! ### A loop at the first of five steps -/

/-- The request is sent for each user, and then four times more. -/
def visitAndRepeat : RunRequest :=
  let once : StepDefinition :=
    { StepDefinition.ofKind .request with using_ := some "user" }
  userWorkflow
    [{ StepDefinition.ofKind .forEach with
        using_ := some "user"
        loop := some ⟨"users", "user", 3⟩ },
      once, once, once, once]

/-- There are three users, whatever the condition. -/
def threeUsers : Evaluator :=
  fun _ => .ok (.list [.data (.number (.integer 1)), .data (.number (.integer 2)),
    .data (.number (.integer 3))])

theorem cancel_visitAndRepeat :
    let engine := (Engine.session threeUsers
      [.start visitAndRepeat 0, .respond ⟨1, 1⟩ (.skipped "later") 1,
        .respond ⟨1, 2⟩ (.skipped "later") 2]).2
    engine.statusLine? = some "step 1/5: user (3/3)" ∧
      (engine.cancel none 3).1.map Report.summary =
        some "canceled at step 3/5" := by
  decide +kernel

end RequestFlow
