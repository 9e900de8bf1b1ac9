import RequestFlow.Proofs.Course

/-!
# The engine moves

What the engine computes between two of its answers is reached by moves of the
run, and the acts of the moves are the acts that the engine logs.  The two
recursions of the engine, through the items of a loop and through the steps, are
opened here and nowhere else.
-/

namespace RequestFlow

open Condition

namespace Run

theorem clear_active (run : Run) (free : run.active = none) :
    { run with active := none } = run := by
  cases run
  simp only at free
  rw [free]

theorem stoppedBy_of_free {run : Run} (free : run.active = none)
    (grounded : run.inFlight = none) (result : StepResult) :
    run.stoppedBy result = run.withResult result := by
  cases run
  simp only at free grounded
  simp only [stoppedBy, withResult, free, grounded]

/-! ## Items of a loop -/

/-- What an active step comes to is reached by moves; a step that is done is
left. -/
def AdvanceReached (evaluator : Evaluator) (first : Run)
    (traced : Traced Advance) : Prop :=
  match traced.value with
  | .dispatched next dispatch =>
      Reaches evaluator first .working traced.log next (.waiting dispatch)
  | .done next =>
      next.active = none ∧ next.inFlight = none ∧
        Reaches evaluator first .working traced.log next.nextStep .working
  | .halted next =>
      Reaches evaluator first .working traced.log next (.over .stopped)

theorem AdvanceReached.head {evaluator : Evaluator} {first middle : Run}
    {acts : Log} {later traced : Traced Advance}
    (moved : Move evaluator first .working acts middle .working)
    (reached : AdvanceReached evaluator middle later)
    (log : traced.log = acts ++ later.log) (value : traced.value = later.value) :
    AdvanceReached evaluator first traced := by
  rw [AdvanceReached] at reached ⊢
  rw [value, log]
  split at reached
  · exact .head moved reached
  · rcases reached with ⟨free, grounded, reached⟩
    exact ⟨free, grounded, .head moved reached⟩
  · exact .head moved reached

/-- The run with its active step at an item of its loop. -/
def atItem (run : Run) (active : ActiveStep) (loop : Loop) : Run :=
  { run with active := some (active.inLoop loop) }

/-- An item that is passed over with a result that does not end the run is
followed by the next item. -/
theorem AdvanceReached.of_goesOn {evaluator : Evaluator} {active : ActiveStep}
    {loop : Loop} {item : Value} {ahead : List Value} {run : Run} {asked : Log}
    {result : StepResult} (items : loop.ahead = item :: ahead)
    (passed :
      PassesOver evaluator (run.atItem active loop) (active.inLoop loop) loop item
        asked result)
    (lasting : (result.isFailure && active.policy.halts) = false)
    {later traced : Traced Advance}
    (reached :
      AdvanceReached evaluator ((run.withResult result).atItem active loop.advance)
        later)
    (log :
      traced.log =
        asked ++ (raiseErrorOf result).log ++ [.recorded result] ++ later.log)
    (value : traced.value = later.value) :
    AdvanceReached evaluator (run.atItem active loop) traced :=
  .head (.goesOn (.passedOver rfl rfl items passed) lasting) reached log value

/-- A failure at an item that ends the run. -/
theorem AdvanceReached.of_stops {evaluator : Evaluator} {active : ActiveStep}
    {loop : Loop} {item : Value} {ahead : List Value} {run : Run} {asked : Log}
    {result : StepResult} (free : run.active = none)
    (grounded : run.inFlight = none) (items : loop.ahead = item :: ahead)
    (passed :
      PassesOver evaluator (run.atItem active loop) (active.inLoop loop) loop item
        asked result)
    (halting : (result.isFailure && active.policy.halts) = true)
    {traced : Traced Advance}
    (log : traced.log = asked ++ (raiseErrorOf result).log ++ [.recorded result])
    (value : traced.value = .halted (run.withResult result)) :
    AdvanceReached evaluator (run.atItem active loop) traced := by
  have stopped :
      Move evaluator (run.atItem active loop) .working
        (asked ++ (raiseErrorOf result).log ++ [.recorded result])
        ((run.atItem active loop).stoppedBy result) (.over .stopped) :=
    .stops (.passedOver rfl rfl items passed) halting
  have same : (run.atItem active loop).stoppedBy result = run.withResult result :=
    stoppedBy_of_free free grounded result
  rw [AdvanceReached, value, log, ← same]
  exact stopped.reaches

/-- A request that is sent after these conditions were evaluated. -/
theorem AdvanceReached.of_sends {evaluator : Evaluator} {run : Run}
    {active sender : ActiveStep} {asked : Log} {scope : DispatchScope}
    {iteration : Option Iteration} (present : run.active = some active)
    (ready : Ready evaluator run active asked sender scope iteration)
    {traced : Traced Advance}
    (log : traced.log = asked ++ [.sent (run.send sender scope iteration).2])
    (value :
      traced.value =
        .dispatched (run.send sender scope iteration).1
          (run.send sender scope iteration).2) :
    AdvanceReached evaluator run traced := by
  have sent := Move.reaches (.sends present ready)
  rw [AdvanceReached, value, log]
  exact sent

theorem advanceReached_advanceItems (evaluator : Evaluator) (active : ActiveStep)
    (name : String) (keys : List String) (done : Nat) (ahead : List Value)
    (run : Run) (free : run.active = none) (grounded : run.inFlight = none) :
    AdvanceReached evaluator (run.atItem active ⟨done, ahead, name, keys⟩)
      (advanceItems evaluator active name keys done ahead run) := by
  induction ahead generalizing done run with
  | nil =>
      refine ⟨free, grounded, ?_⟩
      have left :
          Move evaluator (run.atItem active ⟨done, [], name, keys⟩) .working []
            { run.nextStep with active := none } .working :=
        .leaves rfl (.inr ⟨_, rfl, rfl⟩)
      rw [clear_active run.nextStep free] at left
      exact left.reaches
  | cons item ahead hypothesis =>
      have later (result : StepResult) :=
        hypothesis (done + 1) (run.withResult result) free grounded
      rw [advanceItems]
      cases bound : item.text with
      | error error =>
          have passed :
              PassesOver evaluator
                (run.atItem active ⟨done, item :: ahead, name, keys⟩)
                (active.inLoop ⟨done, item :: ahead, name, keys⟩)
                ⟨done, item :: ahead, name, keys⟩ item _ _ :=
            .unbound bound
          cases halts : active.policy.halts with
          | true => exact .of_stops free grounded rfl passed halts rfl rfl
          | false => exact .of_goesOn rfl passed halts (later _) rfl rfl
      | ok text =>
          simp only
          cases guarded : active.guard with
          | none =>
              have ready :
                  Ready evaluator
                    (run.atItem active ⟨done, item :: ahead, name, keys⟩)
                    (active.inLoop ⟨done, item :: ahead, name, keys⟩) [] _ _ _ :=
                .item rfl rfl bound guarded
              exact .of_sends rfl ready rfl rfl
          | some guard =>
              simp only [Traced.ask]
              cases answered : evaluator
                  (queryOf run.workflow.name active.stepIndex .guard guard
                    (run.scopeFor active.bindings
                      (some ⟨name, keys, text, item⟩))) with
              | error error =>
                  have passed :
                      PassesOver evaluator
                        (run.atItem active ⟨done, item :: ahead, name, keys⟩)
                        (active.inLoop ⟨done, item :: ahead, name, keys⟩)
                        ⟨done, item :: ahead, name, keys⟩ item _ _ :=
                    .faulty bound guarded answered
                  cases halts : active.policy.halts with
                  | true => exact .of_stops free grounded rfl passed halts rfl rfl
                  | false => exact .of_goesOn rfl passed halts (later _) rfl rfl
              | ok value =>
                  simp only [bind, Traced.andThen]
                  cases truthy : value.isTruthy with
                  | true =>
                      have ready :
                          Ready evaluator
                            (run.atItem active ⟨done, item :: ahead, name, keys⟩)
                            (active.inLoop ⟨done, item :: ahead, name, keys⟩) _ _ _
                            _ :=
                        .guardedItem rfl rfl bound guarded answered truthy
                      exact .of_sends rfl ready rfl rfl
                  | false =>
                      have passed :
                          PassesOver evaluator
                            (run.atItem active ⟨done, item :: ahead, name, keys⟩)
                            (active.inLoop ⟨done, item :: ahead, name, keys⟩)
                            ⟨done, item :: ahead, name, keys⟩ item _ _ :=
                        .refused bound guarded answered truthy
                      exact .of_goesOn rfl passed rfl (later _) rfl rfl

/-- What an active step comes to is reached from the run in which it is active. -/
theorem advanceReached_advanceActive (evaluator : Evaluator) (active : ActiveStep)
    (run : Run) (free : run.active = none) (grounded : run.inFlight = none) :
    AdvanceReached evaluator { run with active := some active }
      (run.advanceActive evaluator active) := by
  rw [advanceActive]
  split
  · next done =>
      refine ⟨free, grounded, ?_⟩
      have left :
          Move evaluator { run with active := some active } .working []
            { run.nextStep with active := none } .working :=
        .leaves rfl (.inl done)
      rw [clear_active run.nextStep free] at left
      exact left.reaches
  · next fresh => exact .of_sends rfl (.once fresh) rfl rfl
  · next loop looping =>
      have same : active.inLoop loop = active := by
        rw [ActiveStep.inLoop, ← looping]
      have reached :=
        advanceReached_advanceItems evaluator active loop.name loop.keys loop.done
          loop.ahead run free grounded
      rw [atItem, same] at reached
      exact reached

/-! ## Steps -/

/-- What a run comes to is reached by moves, and it is not canceled on the way. -/
def ProgressionReached (evaluator : Evaluator) (first : Run)
    (traced : Traced Progression) : Prop :=
  match traced.value with
  | .dispatched next dispatch =>
      Reaches evaluator first .working traced.log next (.waiting dispatch)
  | .finished next ending =>
      ending ≠ .canceled ∧
        Reaches evaluator first .working traced.log next (.over ending)

theorem ProgressionReached.after {evaluator : Evaluator} {first middle : Run}
    {acts : Log} {later traced : Traced Progression}
    (before : Reaches evaluator first .working acts middle .working)
    (reached : ProgressionReached evaluator middle later)
    (log : traced.log = acts ++ later.log) (value : traced.value = later.value) :
    ProgressionReached evaluator first traced := by
  rw [ProgressionReached] at reached ⊢
  rw [value, log]
  split at reached
  · exact before.trans reached
  · exact ⟨reached.1, before.trans reached.2⟩

/-- A run that goes on with an active step goes on with the steps after it where
that one is done. -/
theorem ProgressionReached.of_advance {evaluator : Evaluator} {first : Run}
    {advance : Traced Advance} (rest : Run → Traced Progression)
    (reached : AdvanceReached evaluator first advance)
    (later : ∀ next,
        advance.value = .done next → next.active = none → next.inFlight = none →
          ProgressionReached evaluator next.nextStep (rest next)) :
    ProgressionReached evaluator first (advance >>= fun
        | .dispatched run dispatch => pure (.dispatched run dispatch)
        | .halted run => pure (.finished run .stopped)
        | .done run => rest run) := by
  rw [AdvanceReached] at reached
  cases came : advance.value with
  | dispatched next dispatch =>
      simp only [came] at reached
      simpa [ProgressionReached, came] using reached
  | halted next =>
      simp only [came] at reached
      simpa [ProgressionReached, came] using reached
  | done next =>
      simp only [came] at reached
      rcases reached with ⟨free, grounded, reached⟩
      refine .after reached (later next came free grounded) ?_ ?_
      · simp [came]
      · simp [came]

theorem getElem?_of_drop_eq_cons {Item : Type} {items rest : List Item}
    {index : Nat} {item : Item} (equal : items.drop index = item :: rest) :
    items[index]? = some item ∧ items.drop (index + 1) = rest := by
  constructor
  · rw [← List.head?_drop, equal, List.head?_cons]
  · rw [← List.tail_drop, equal, List.tail_cons]

theorem progressionReached_proceed (evaluator : Evaluator)
    (steps : List ResolvedStep) (run : Run) (free : run.active = none)
    (grounded : run.inFlight = none)
    (ahead : run.workflow.steps.drop run.stepIndex = steps) :
    ProgressionReached evaluator run (run.proceed evaluator steps) := by
  induction steps generalizing run with
  | nil =>
      have done : run.workflow.steps.length ≤ run.stepIndex :=
        List.drop_eq_nil_iff.mp ahead
      exact ⟨by decide, Move.reaches (.completes free done)⟩
  | cons step steps hypothesis =>
      rcases getElem?_of_drop_eq_cons ahead with ⟨current, rest⟩
      rw [proceed]
      show ProgressionReached evaluator run
        (step.next (run.contextFor evaluator step) >>= _)
      rcases decided : step.next (run.contextFor evaluator step) with
        ⟨asked, action⟩
      cases action with
      | record result policy =>
          have yields :
              Yields evaluator run .working (asked ++ (raiseErrorOf result).log)
                result policy (run.withResult result).nextStep :=
            .settled free current decided
          cases halts : result.isFailure && policy.halts with
          | true =>
              have stopped := Move.reaches (.stops yields halts)
              rw [stoppedBy_of_free free grounded] at stopped
              rw [List.append_assoc] at stopped
              simp only [ProgressionReached, Traced.value_bind, Traced.log_bind,
                value_record, log_record, halts, if_true, Traced.value_pure,
                Traced.log_pure, List.append_nil]
              exact ⟨by decide, stopped⟩
          | false =>
              refine .after (Move.reaches (.goesOn yields halts))
                (hypothesis (run.withResult result).nextStep free grounded rest) ?_
                ?_
              · simp only [Traced.log_bind, value_record, log_record, halts,
                  List.append_assoc]
                rfl
              · simp only [Traced.value_bind, value_record, halts]
                rfl
      | dispatch active =>
          have entered :
              Move evaluator run .working asked { run with active := some active }
                .working :=
            .enters free current decided
          refine .after entered.reaches
            (.of_advance (fun next => proceed evaluator steps next.nextStep)
              (advanceReached_advanceActive evaluator active run free grounded) ?_)
            rfl rfl
          intro next came free grounded
          have stays := staysAt_advanceActive run evaluator active
          rw [came] at stays
          refine hypothesis next.nextStep free grounded ?_
          simp only [nextStep, stays.1, stays.2]
          exact rest

/-- A run that goes on is at a request or over, and every move of it is logged. -/
theorem progressionReached_resume (evaluator : Evaluator) (run : Run)
    (grounded : run.inFlight = none) :
    ProgressionReached evaluator run (run.resume evaluator) := by
  rw [resume]
  cases present : run.active with
  | none => exact progressionReached_proceed evaluator _ run present grounded rfl
  | some active =>
      have reached :=
        advanceReached_advanceActive evaluator active { run with active := none }
          rfl grounded
      have same : { run with active := some active } = run := by
        cases run
        simp only at present
        rw [present]
      simp only [same] at reached
      simp only
      refine .of_advance (fun next =>
        next.nextStep.proceed evaluator (next.stepsFrom (next.stepIndex + 1)))
          reached ?_
      intro next came free grounded
      exact progressionReached_proceed evaluator _ next.nextStep free grounded rfl

end Run

end RequestFlow
