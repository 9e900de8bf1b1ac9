import RequestFlow.Run.Engine

/-!
# The work that is left

What a run still has to do: the steps it has not left, and within the active step
the dispatches that are still to come.  Main statement: every answer that leads to
another dispatch leaves less work than there was, so a run comes to its end.
-/

namespace RequestFlow

open Condition

/-- The dispatches that a step has still to make, the one under way included in a
loop. -/
def Progress.left : Progress → Nat
  | .single dispatched => if dispatched then 0 else 1
  | .looping loop => loop.ahead.length

namespace Run

/-- The dispatches that the active step has still to make. -/
def activeLeft (run : Run) : Nat :=
  (run.active.map fun active => active.progress.left).getD 0

/-- The steps not left, and the dispatches that the active step has still to
make. -/
def work (run : Run) : Nat × Nat :=
  (run.workflow.totalSteps - run.stepIndex, run.activeLeft)

/-- What an active step comes to stays at its step, and a dispatch leaves at most
so much to do. -/
def StaysAt (run : Run) (bound : Nat) : Advance → Prop
  | .dispatched next _ =>
      next.workflow = run.workflow ∧ next.stepIndex = run.stepIndex ∧
        next.activeLeft ≤ bound
  | .done next => next.workflow = run.workflow ∧ next.stepIndex = run.stepIndex
  | .halted _ => True

theorem StaysAt.weaken {run other : Run} {bound larger : Nat} {advance : Advance}
    (stays : StaysAt run bound advance) (workflow : run.workflow = other.workflow)
    (stepIndex : run.stepIndex = other.stepIndex) (smaller : bound ≤ larger) :
    StaysAt other larger advance := by
  cases advance with
  | dispatched next dispatch =>
      exact ⟨stays.1.trans workflow, stays.2.1.trans stepIndex,
        Nat.le_trans stays.2.2 smaller⟩
  | done next => exact ⟨stays.1.trans workflow, stays.2.trans stepIndex⟩
  | halted next => trivial

theorem staysAt_sendNow (run : Run) (active : ActiveStep) (scope : DispatchScope)
    (iteration : Option Iteration) :
    StaysAt run active.progress.left (run.sendNow active scope iteration).value :=
  ⟨rfl, rfl, Nat.le_refl _⟩

theorem staysAt_advanceItems (evaluator : Evaluator) (active : ActiveStep)
    (name : String) (keys : List String) (done : Nat) (ahead : List Value)
    (run : Run) :
    StaysAt run ahead.length
      (advanceItems evaluator active name keys done ahead run).value := by
  induction ahead generalizing done run with
  | nil => exact ⟨rfl, rfl⟩
  | cons item ahead hypothesis =>
      have later (next : Run) (workflow : next.workflow = run.workflow)
          (stepIndex : next.stepIndex = run.stepIndex) :
          StaysAt run (item :: ahead).length
            (advanceItems evaluator active name keys (done + 1) ahead
              next).value :=
        (hypothesis (done + 1) next).weaken workflow stepIndex (Nat.le_succ _)
      rw [advanceItems]
      simp only
      split
      · simp only [Traced.value_bind]
        split
        · trivial
        · exact later _ rfl rfl
      · split
        · exact staysAt_sendNow run _ _ _
        · simp only [Traced.value_bind]
          split
          · split
            · exact staysAt_sendNow run _ _ _
            · exact later _ rfl rfl
          · simp only [Traced.value_bind]
            split
            · trivial
            · exact later _ rfl rfl

theorem staysAt_advanceActive (run : Run) (evaluator : Evaluator)
    (active : ActiveStep) :
    StaysAt run active.progress.left
      (run.advanceActive evaluator active).value := by
  rw [advanceActive]
  split
  · exact ⟨rfl, rfl⟩
  · next equal =>
      exact (staysAt_sendNow run _ _ _).weaken rfl rfl
        (by simp [Progress.left, equal])
  · next loop equal =>
      rw [equal]
      exact staysAt_advanceItems evaluator active loop.name loop.keys loop.done
        loop.ahead run

/-- A dispatch by one of the steps ahead is made at its step. -/
theorem stepIndex_of_proceed {evaluator : Evaluator} {steps : List ResolvedStep}
    {run next : Run} {dispatch : Dispatch}
    (proceeded : (run.proceed evaluator steps).value = .dispatched next dispatch) :
    next.workflow = run.workflow ∧ run.stepIndex ≤ next.stepIndex ∧
      next.stepIndex < run.stepIndex + steps.length := by
  induction steps generalizing run with
  | nil => simp [proceed] at proceeded
  | cons step steps hypothesis =>
      have later {middle : Run} (workflow : middle.workflow = run.workflow)
          (stepIndex : middle.stepIndex = run.stepIndex)
          (proceeded :
            (middle.nextStep.proceed evaluator steps).value =
              .dispatched next dispatch) :
          next.workflow = run.workflow ∧ run.stepIndex ≤ next.stepIndex ∧
            next.stepIndex < run.stepIndex + (step :: steps).length := by
        obtain ⟨same, low, high⟩ := hypothesis proceeded
        simp only [nextStep, stepIndex] at low high
        refine ⟨same.trans workflow, by omega, ?_⟩
        simp only [List.length_cons]
        omega
      simp only [proceed, Traced.value_bind] at proceeded
      split at proceeded
      · simp only [Traced.value_bind] at proceeded
        split at proceeded
        · simp at proceeded
        · refine later ?_ ?_ proceeded <;> rfl
      · next active _ =>
          have stays := staysAt_advanceActive run evaluator active
          simp only [Traced.value_bind] at proceeded
          split at proceeded
          · next middle sent equal =>
              rw [equal] at stays
              simp only [Traced.value_pure, Progression.dispatched.injEq]
                at proceeded
              obtain ⟨rfl, rfl⟩ := proceeded
              refine ⟨stays.1, Nat.le_of_eq stays.2.1.symm, ?_⟩
              simp only [List.length_cons, stays.2.1]
              omega
          · simp at proceeded
          · next middle equal =>
              rw [equal] at stays
              exact later stays.1 stays.2 proceeded

/-- Going on from an active step to another dispatch leaves the step, or at most
what the step had left. -/
theorem work_of_resume {evaluator : Evaluator} {run next : Run}
    {active : ActiveStep} {dispatch : Dispatch}
    (present : run.active = some active)
    (resumed : (run.resume evaluator).value = .dispatched next dispatch) :
    next.work.1 < run.work.1 ∨
      next.work.1 = run.work.1 ∧ next.work.2 ≤ active.progress.left ∧
        ∃ middle sent,
          (({ run with active := none }).advanceActive evaluator active).value =
            .dispatched middle sent := by
  rw [resume, present] at resumed
  simp only [Traced.value_bind] at resumed
  have stays := staysAt_advanceActive { run with active := none } evaluator active
  split at resumed
  · next middle sent equal =>
      rw [equal] at stays
      simp only [Traced.value_pure, Progression.dispatched.injEq] at resumed
      obtain ⟨rfl, rfl⟩ := resumed
      refine Or.inr ⟨?_, stays.2.2, middle, sent, equal⟩
      simp only [work, stays.1, stays.2.1]
  · simp at resumed
  · next middle equal =>
      rw [equal] at stays
      obtain ⟨workflow, low, high⟩ := stepIndex_of_proceed resumed
      obtain ⟨same, index⟩ := stays
      simp only at same index
      simp only [nextStep, stepsFrom, List.length_drop, same, index]
        at workflow low high
      refine Or.inl ?_
      simp only [work, workflow, ResolvedWorkflow.totalSteps]
      omega

end Run

namespace Engine

/-- The work that is left. -/
def work (engine : Engine) : Nat × Nat :=
  (engine.run.map Run.work).getD (0, 0)

theorem run_of_settle {engine : Engine} {now : Int} {traced : Traced Progression}
    {dispatch : Dispatch}
    (settled : (engine.settle now traced).value.1 = .dispatch dispatch) :
    ∃ next, traced.value = .dispatched next dispatch ∧
      (engine.settle now traced).value.2.run = some next := by
  rw [settle] at settled ⊢
  cases value : traced.value with
  | dispatched next sent =>
      simp only [value, Directive.dispatch.injEq] at settled ⊢
      exact ⟨next, by rw [settled], rfl⟩
  | finished next ending => simp [value] at settled

theorem work_of_accept {engine : Engine} {evaluator : Evaluator} {run : Run}
    {active : ActiveStep} {result : StepResult} {now : Int} {dispatch : Dispatch}
    (accepted :
      (engine.accept evaluator run active result now).value.1 =
        .dispatch dispatch) :
    Prod.Lex (· < ·) (· < ·)
      (engine.accept evaluator run active result now).value.2.work
      (run.workflow.totalSteps - run.stepIndex, active.progress.left) := by
  simp only [accept, Traced.value_bind, Run.value_record] at accepted ⊢
  split at accepted
  · simp at accepted
  · next going =>
      rw [if_neg going]
      obtain ⟨next, resumed, equal⟩ := run_of_settle accepted
      simp only [work, equal, Option.map_some, Option.getD_some]
      rcases Run.work_of_resume rfl resumed with
        less | ⟨same, left, middle, sent, sending⟩
      · exact Prod.Lex.left _ _ less
      · have strictly : next.work.2 < active.progress.left := by
          cases progress : active.progress with
          | single dispatched =>
              cases dispatched with
              | true =>
                  simp [Run.advanceActive, ActiveStep.advance, Progress.advance,
                    progress] at sending
              | false =>
                  simp only [Run.resume, Run.advanceActive, ActiveStep.advance,
                    Progress.advance, progress, Traced.value_bind,
                    Run.value_sendNow, Traced.value_pure,
                    Progression.dispatched.injEq] at resumed
                  rw [← resumed.1]
                  simp [Run.work, Run.activeLeft, Run.send, Progress.left]
          | looping loop =>
              simp only [ActiveStep.advance, Progress.advance, progress]
                at left sending
              cases ahead : loop.ahead with
              | nil =>
                  simp [Run.advanceActive, Loop.advance, ahead, Run.advanceItems]
                    at sending
              | cons item rest =>
                  simp only [Loop.advance, ahead, Progress.left] at left
                  simp only [Progress.left, ahead, List.length_cons]
                  omega
        simp only [Run.work, Run.withResult] at same strictly ⊢
        rw [same]
        exact Prod.Lex.right _ strictly

/-- An answer that leads to another dispatch leaves less work than there was. -/
theorem work_of_respond {engine : Engine} {evaluator : Evaluator} {token : Token}
    {outcome : Outcome} {now : Int} {dispatch : Dispatch}
    (answered :
      (engine.respond evaluator token outcome now).value.1 = .dispatch dispatch) :
    Prod.Lex (· < ·) (· < ·)
      (engine.respond evaluator token outcome now).value.2.work engine.work := by
  have whole (run : Run) (active : ActiveStep) (running : engine.run = some run)
      (present : run.active = some active) :
      engine.work =
        (run.workflow.totalSteps - run.stepIndex, active.progress.left) := by
    simp [work, running, Run.work, Run.activeLeft, present]
  rw [respond] at answered ⊢
  split at answered
  · simp at answered
  · next run running =>
      split at answered
      · simp at answered
      · next inFlight flying =>
          split at answered
          · simp at answered
          · next known =>
              cases present : run.active with
              | none => simp [present] at answered
              | some active =>
                  rw [whole run active running present]
                  simp only [known, if_false, present] at answered ⊢
                  cases outcome with
                  | canceled => simp at answered
                  | skipped reason => exact work_of_accept answered
                  | completed snapshot => exact work_of_accept answered

end Engine

end RequestFlow
