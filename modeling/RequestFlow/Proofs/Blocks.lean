import RequestFlow.Proofs.Position

/-!
# Results come in blocks

The results of a run stand step by step, in the order of the steps.  A step leaves
either one result without a place in a loop, or, if its loop source has yielded
items, one result for each of them, in order.  Main statement: whatever the
answers are, a play leaves the beginning of such a list, which ends within the
block of the current step, and all of it if the run completes.
-/

namespace RequestFlow

open Condition

/-! ## Blocks -/

/-- The place of a result: its step, and its place in a loop. -/
def StepResult.place (result : StepResult) : Nat × Option Iteration :=
  (result.stepIndex, result.iteration)

/-- The places of the results that a step of a shape leaves. -/
def Shape.block (index : Nat) : Shape → List (Nat × Option Iteration)
  | single => [(index, none)]
  | looped size => (List.range size).map fun done => (index, some ⟨done + 1, size⟩)

/-- The blocks of steps from an index on, one after the other. -/
def layout : Nat → List Shape → List (Nat × Option Iteration)
  | _, [] => []
  | index, shape :: shapes => shape.block index ++ layout (index + 1) shapes

theorem layout_concat (first : Nat) (shapes : List Shape) (shape : Shape) :
    layout first (shapes ++ [shape]) =
      layout first shapes ++ shape.block (first + shapes.length) := by
  induction shapes generalizing first with
  | nil => exact List.append_nil _
  | cons head shapes hypothesis =>
      have place : first + 1 + shapes.length = first + (head :: shapes).length :=
        Nat.add_right_comm first 1 shapes.length
      rw [List.cons_append, layout, layout, hypothesis, List.append_assoc, place]

theorem Shape.fst_of_mem_block {index : Nat} {shape : Shape}
    {place : Nat × Option Iteration} (member : place ∈ shape.block index) :
    place.1 = index := by
  cases shape with
  | single =>
      rcases List.mem_singleton.mp member with rfl
      rfl
  | looped size =>
      rcases List.mem_map.mp member with ⟨done, within, rfl⟩
      rfl

theorem le_of_mem_layout {first : Nat} {shapes : List Shape}
    {place : Nat × Option Iteration} (member : place ∈ layout first shapes) :
    first ≤ place.1 := by
  induction shapes generalizing first with
  | nil => exact (List.not_mem_nil member).elim
  | cons shape shapes hypothesis =>
      rcases List.mem_append.mp member with inside | later
      · exact Nat.le_of_eq (Shape.fst_of_mem_block inside).symm
      · exact Nat.le_of_succ_le (hypothesis later)

theorem mem_layout {first index : Nat} {shapes : List Shape} {shape : Shape}
    {place : Nat × Option Iteration} (present : shapes[index]? = some shape)
    (member : place ∈ shape.block (first + index)) :
    place ∈ layout first shapes := by
  induction shapes generalizing first index with
  | nil => cases present
  | cons head shapes hypothesis =>
      cases index with
      | zero =>
          rcases Option.some.inj present with rfl
          exact List.mem_append_left _ member
      | succ index =>
          rw [← Nat.add_assoc, Nat.add_right_comm] at member
          exact List.mem_append_right _ (hypothesis present member)

/-- Blocks stand in the order of their steps. -/
theorem pairwise_layout (first : Nat) (shapes : List Shape) :
    (layout first shapes).Pairwise fun earlier later => earlier.1 ≤ later.1 := by
  induction shapes generalizing first with
  | nil => exact List.Pairwise.nil
  | cons shape shapes hypothesis =>
      refine List.pairwise_append.mpr ⟨?_, hypothesis (first + 1), ?_⟩
      · apply List.pairwise_of_forall_mem_list
        intro earlier atEarlier later atLater
        exact Nat.le_of_eq
          ((Shape.fst_of_mem_block atEarlier).trans
            (Shape.fst_of_mem_block atLater).symm)
      · intro earlier atEarlier later atLater
        rw [Shape.fst_of_mem_block atEarlier]
        exact Nat.le_of_succ_le (le_of_mem_layout atLater)

/-- One more place of a loop's block. -/
theorem take_succ_block_looped {index done size : Nat} (within : done < size) :
    ((Shape.looped size).block index).take (done + 1) =
      ((Shape.looped size).block index).take done ++
        [(index, some ⟨done + 1, size⟩)] := by
  have inside : done < ((Shape.looped size).block index).length := by
    simpa [Shape.block] using within
  rw [List.take_succ_eq_append_getElem inside]
  simp [Shape.block]

/-- The steps from the first one on have these shapes. -/
def FitAll (evaluator : Evaluator) (log : Log) (shapes : List Shape) : Prop :=
  ∀ (index : Nat) (shape : Shape),
    shapes[index]? = some shape → shape.Fits evaluator log index

theorem FitAll.concat {evaluator : Evaluator} {log : Log} {shapes : List Shape}
    {last : Shape} (fits : FitAll evaluator log shapes)
    (lastFits : last.Fits evaluator log shapes.length) :
    FitAll evaluator log (shapes ++ [last]) := by
  intro index shape present
  rcases Nat.lt_trichotomy index shapes.length with less | rfl | more
  · rw [List.getElem?_append_left less] at present
    exact fits index shape present
  · rw [List.getElem?_concat_length] at present
    rcases Option.some.inj present with rfl
    exact lastFits
  · rw [List.getElem?_eq_none (by rw [List.length_append]; exact more)] at present
    cases present

/-- No block is empty. -/
theorem FitAll.exists_place {evaluator : Evaluator} {log : Log}
    {shapes : List Shape} {index : Nat} (fits : FitAll evaluator log shapes)
    (within : index < shapes.length) :
    ∃ iteration, (index, iteration) ∈ layout 0 shapes := by
  have present := List.getElem?_eq_getElem within
  cases shape : shapes[index] with
  | single =>
      rw [shape] at present
      refine ⟨none, mem_layout present ?_⟩
      rw [Nat.zero_add]
      exact List.mem_singleton_self _
  | looped size =>
      rw [shape] at present
      have positive := ((fits index _ present size).mp rfl).1
      refine ⟨some ⟨1, size⟩, mem_layout present ?_⟩
      rw [Nat.zero_add]
      exact List.mem_map.mpr ⟨0, List.mem_range.mpr positive, rfl⟩

/-- What later steps ask for does not change the shapes. -/
theorem FitAll.later {evaluator : Evaluator} {log more : Log} {shapes : List Shape}
    (fits : FitAll evaluator log shapes)
    (foreign : ∀ query ∈ more.queries, query.step = shapes.length + 1) :
    FitAll evaluator (log ++ more) shapes := by
  intro index shape present
  rcases List.getElem?_eq_some_iff.mp present with ⟨within, _⟩
  refine (Shape.fits_append_right fun size => ?_).mpr (fits index shape present)
  apply Log.not_yielded_of_foreign
  intro query member own
  have same := (foreign query member).symm.trans own
  exact Nat.ne_of_gt within (Nat.succ.inj same)

/-- The shape of a step does not depend on what the steps before it have asked
for. -/
theorem Shape.Fits.after {evaluator : Evaluator} {log asked more : Log}
    {index : Nat} {shape : Shape} (fits : shape.Fits evaluator asked index)
    (same : more.queries = asked.queries)
    (bounded : ∀ query ∈ log.queries, query.step ≤ index) :
    shape.Fits evaluator (log ++ more) index := by
  refine (Shape.fits_append_left fun size => ?_).mpr ?_
  · apply Log.not_yielded_of_foreign
    intro query member own
    have behind := bounded query member
    rw [own] at behind
    exact Nat.not_succ_le_self index behind
  · exact (Shape.fits_congr same).mpr fits

/-- The results of a log stand in the blocks of steps with these shapes, the last
of which may not be full yet. -/
structure InBlocks (evaluator : Evaluator) (steps : Nat) (log : Log)
    (shapes : List Shape) : Prop where
  within : shapes.length ≤ steps
  fits : FitAll evaluator log shapes
  covers : layout 0 shapes.dropLast <+: log.results.map StepResult.place
  inside : log.results.map StepResult.place <+: layout 0 shapes

namespace InBlocks

variable {evaluator : Evaluator} {steps : Nat} {log : Log} {shapes : List Shape}

/-- All blocks are full. -/
theorem of_full (within : shapes.length ≤ steps)
    (fits : FitAll evaluator log shapes)
    (full : log.results.map StepResult.place = layout 0 shapes) :
    InBlocks evaluator steps log shapes := by
  refine ⟨within, fits, ?_, full ▸ List.prefix_refl _⟩
  rw [full]
  rcases List.eq_nil_or_concat shapes with rfl | ⟨others, last, rfl⟩
  · exact List.prefix_refl _
  · rw [List.concat_eq_append, List.dropLast_concat, layout_concat]
    exact List.prefix_append _ _

/-- The block of the last shape is there in part. -/
theorem of_partial {last : Shape} {done : Nat} (within : shapes.length < steps)
    (fits : FitAll evaluator log shapes)
    (lastFits : last.Fits evaluator log shapes.length)
    (there : log.results.map StepResult.place =
      layout 0 shapes ++ (last.block shapes.length).take done) :
    InBlocks evaluator steps log (shapes ++ [last]) := by
  refine ⟨?_, fits.concat lastFits, ?_, ?_⟩
  · rw [List.length_append]
    exact within
  · rw [List.dropLast_concat, there]
    exact List.prefix_append _ _
  · rw [layout_concat, Nat.zero_add, there]
    exact List.prefix_append_right_inj _ |>.mpr (List.take_prefix _ _)

/-- Results in blocks are in the order of the steps. -/
theorem ordered (blocks : InBlocks evaluator steps log shapes) :
    log.results.Pairwise fun earlier later =>
      earlier.stepIndex ≤ later.stepIndex := by
  have places := (pairwise_layout 0 shapes).sublist blocks.inside.sublist
  rw [List.pairwise_map] at places
  exact places

end InBlocks

/-! ## How far the block of a step is -/

/-- The results of the active step that are there. -/
def Progress.recorded (stage : Stage) : Progress → Nat
  | single false => 0
  | single true =>
      match stage with
      | .waiting _ => 0
      | _ => 1
  | looping loop => loop.done

/-- The place in the loop of the result that is to come. -/
def Progress.iteration : Progress → Option Iteration
  | single _ => none
  | looping loop => some loop.iteration

/-- A result of the active step is to come. -/
def Progress.Pending (stage : Stage) : Progress → Prop
  | single dispatched => dispatched = true ∧ ∃ dispatch, stage = .waiting dispatch
  | looping loop => loop.ahead ≠ []

theorem Progress.pending_looping {stage : Stage} {loop : Loop} {item : Value}
    {ahead : List Value} (items : loop.ahead = item :: ahead) :
    (looping loop).Pending stage := by
  show loop.ahead ≠ []
  rw [items]
  exact List.cons_ne_nil item ahead

@[simp] theorem Progress.shape_advance (progress : Progress) :
    progress.advance.shape = progress.shape := by
  cases progress with
  | single dispatched => rfl
  | looping loop => simp [advance, shape]

/-- The result that was to come takes the next place of the block. -/
theorem Progress.take_advance {progress : Progress} {stage : Stage}
    (pending : progress.Pending stage) (index : Nat) :
    (progress.shape.block index).take (progress.advance.recorded .working) =
      (progress.shape.block index).take (progress.recorded stage) ++
        [(index, progress.iteration)] := by
  cases progress with
  | single dispatched =>
      rcases pending with ⟨rfl, dispatch, rfl⟩
      rfl
  | looping loop =>
      cases ahead : loop.ahead with
      | nil => exact (pending ahead).elim
      | cons item rest =>
          have within : loop.done < loop.size := by
            simp [Loop.size, ahead]
          have place : loop.iteration = ⟨loop.done + 1, loop.size⟩ := by
            rw [Loop.iteration, Nat.min_eq_left within]
          have further : loop.advance.done = loop.done + 1 := by
            simp [Loop.advance, ahead]
          simp only [advance, recorded, iteration, shape, further, place]
          exact take_succ_block_looped within

/-- A step that is left has its block in full. -/
theorem Progress.take_left {progress : Progress}
    (finished :
      progress = .single true ∨ ∃ loop, progress = .looping loop ∧ loop.ahead = [])
    (index : Nat) :
    (progress.shape.block index).take (progress.recorded .working) =
      progress.shape.block index := by
  rcases finished with rfl | ⟨loop, rfl, ahead⟩
  · rfl
  · apply List.take_of_length_le
    simp [shape, Shape.block, recorded, Loop.size, ahead]

/-! ## The blocks of a run -/

/-- A log between two steps: all blocks are full. -/
structure Between (log : Log) (shapes : List Shape) : Prop where
  bounded : ∀ query ∈ log.queries, query.step ≤ shapes.length
  there : log.results.map StepResult.place = layout 0 shapes

/-- A log amid a step: its block is there as far as the step has come. -/
structure Amid (evaluator : Evaluator) (stage : Stage) (log : Log)
    (shapes : List Shape) (progress : Progress) : Prop where
  bounded : ∀ query ∈ log.queries, query.step ≤ shapes.length + 1
  fits : progress.shape.Fits evaluator log shapes.length
  there :
    log.results.map StepResult.place =
      layout 0 shapes ++
        (progress.shape.block shapes.length).take (progress.recorded stage)

section Recording

variable {evaluator : Evaluator} {log acts : Log} {shapes : List Shape}
  {result : StepResult}

theorem bounded_append {bound : Nat}
    (bounded : ∀ query ∈ log.queries, query.step ≤ bound)
    (more : ∀ query ∈ acts.queries, query.step ≤ bound) :
    ∀ query ∈ (log ++ acts).queries, query.step ≤ bound := by
  intro query member
  rw [Log.queries_append] at member
  rcases List.mem_append.mp member with member | member
  · exact bounded query member
  · exact more query member

/-- A step that leaves one result and sends nothing. -/
theorem Between.record (between : Between log shapes)
    (leads : Run.LeadsTo shapes.length acts)
    (place : result.place = (shapes.length, none)) :
    Between (log ++ (acts ++ [.recorded result])) (shapes ++ [.single]) := by
  rcases leads.record result with ⟨own, recorded, unsent⟩
  constructor
  · rw [List.length_append]
    refine bounded_append
      (fun query member => Nat.le_succ_of_le (between.bounded query member)) ?_
    intro query member
    exact Nat.le_of_eq (own query member)
  · rw [Log.results_append, recorded, List.map_append, between.there,
      layout_concat, Nat.zero_add]
    simp only [List.map_cons, List.map_nil, place, Shape.block]

/-- A result of an active step. -/
theorem Amid.record {stage : Stage} {progress : Progress}
    (amid : Amid evaluator stage log shapes progress)
    (pending : progress.Pending stage) (leads : Run.LeadsTo shapes.length acts)
    (unlooped : ∀ size, ¬ acts.Yielded evaluator shapes.length size)
    (place : result.place = (shapes.length, progress.iteration)) :
    Amid evaluator .working (log ++ (acts ++ [.recorded result])) shapes
      progress.advance := by
  rcases leads.record result with ⟨own, recorded, unsent⟩
  refine ⟨?_, ?_, ?_⟩
  · exact bounded_append amid.bounded fun query member =>
      Nat.le_of_eq (own query member)
  · rw [Progress.shape_advance]
    refine (Shape.fits_append_right fun size yielded => ?_).mpr amid.fits
    rcases Log.yielded_append.mp yielded with yielded | ⟨query, member, rest⟩
    · exact unlooped size yielded
    · exact List.not_mem_nil member
  · rw [Log.results_append, recorded, List.map_append, amid.there,
      List.append_assoc, Progress.shape_advance, Progress.take_advance pending]
    simp only [List.map_cons, List.map_nil, place]

end Recording

namespace Run

/-- The blocks of a run so far: those of the steps behind it, and that of the
active step in part. -/
structure Laid (evaluator : Evaluator) (run : Run) (stage : Stage) (log : Log)
    (shapes : List Shape) : Prop where
  results : run.results = log.results
  length : shapes.length = run.stepIndex
  fits : FitAll evaluator log shapes
  between : run.active = none → Between log shapes
  amid :
    ∀ active,
      run.active = some active → Amid evaluator stage log shapes active.progress
  awaited :
    ∀ dispatch, stage = .waiting dispatch →
      ∀ active inFlight, run.active = some active → run.inFlight = some inFlight →
        active.progress.Pending stage ∧
          inFlight.iteration = active.progress.iteration

/-- The run has come to the next step. -/
theorem Laid.of_between {evaluator : Evaluator} {run : Run} {log : Log}
    {shapes : List Shape} (free : run.active = none)
    (results : run.results = log.results) (length : shapes.length = run.stepIndex)
    (fits : FitAll evaluator log shapes) (between : Between log shapes) :
    Laid evaluator run .working log shapes := by
  refine ⟨results, length, fits, fun _ => between, ?_, ?_⟩
  · intro active present
    rw [free] at present
    cases present
  · rintro dispatch ⟨⟩

/-- The run is amid a step and works. -/
theorem Laid.of_amid {evaluator : Evaluator} {run : Run} {log : Log}
    {shapes : List Shape} {active : ActiveStep}
    (present : run.active = some active) (results : run.results = log.results)
    (length : shapes.length = run.stepIndex) (fits : FitAll evaluator log shapes)
    (amid : Amid evaluator .working log shapes active.progress) :
    Laid evaluator run .working log shapes := by
  refine ⟨results, length, fits, ?_, ?_, ?_⟩
  · intro free
    rw [present] at free
    cases free
  · intro other equal
    rcases Option.some.inj (present.symm.trans equal) with rfl
    exact amid
  · rintro dispatch ⟨⟩

/-- The results of a laid run are in blocks. -/
theorem Laid.inBlocks {evaluator : Evaluator} {run : Run} {stage : Stage}
    {log : Log} {shapes : List Shape} (laid : Laid evaluator run stage log shapes)
    (placed : run.Placed) :
    ∃ shapes, InBlocks evaluator run.workflow.totalSteps log shapes := by
  cases present : run.active with
  | none =>
      have between := laid.between present
      refine ⟨shapes, .of_full ?_ laid.fits between.there⟩
      rw [laid.length]
      exact placed.within
  | some active =>
      have amid := laid.amid active present
      refine ⟨_, .of_partial ?_ laid.fits amid.fits amid.there⟩
      rw [laid.length]
      exact placed.stepIndex_lt present

/-- A result of the active step that was to come. -/
theorem Laid.record {evaluator : Evaluator} {run next : Run} {stage : Stage}
    {log acts : Log} {shapes : List Shape} {active : ActiveStep}
    {result : StepResult} (laid : Laid evaluator run stage log shapes)
    (present : run.active = some active) (pending : active.progress.Pending stage)
    (leads : LeadsTo run.stepIndex acts)
    (unlooped : ∀ size, ¬ acts.Yielded evaluator run.stepIndex size)
    (place : result.place = (run.stepIndex, active.progress.iteration))
    (following : next.active = some active.advance)
    (stepIndex : next.stepIndex = run.stepIndex)
    (results : next.results = run.results ++ [result]) :
    Laid evaluator next .working (log ++ (acts ++ [.recorded result])) shapes := by
  rw [← laid.length] at leads unlooped place
  rcases leads.record result with ⟨own, recorded, unsent⟩
  refine .of_amid following ?_ (laid.length.trans stepIndex.symm)
    (laid.fits.later own)
    ((laid.amid active present).record pending leads unlooped place)
  rw [results, laid.results, Log.results_append, recorded]

/-- A step that leaves its result and sends nothing. -/
theorem Laid.settle {evaluator : Evaluator} {run : Run} {log acts : Log}
    {shapes : List Shape} {result : StepResult}
    (laid : Laid evaluator run .working log shapes) (free : run.active = none)
    (leads : LeadsTo run.stepIndex acts)
    (fits : Shape.single.Fits evaluator acts run.stepIndex)
    (place : result.place = (run.stepIndex, none)) :
    Laid evaluator (run.withResult result).nextStep .working
      (log ++ (acts ++ [.recorded result])) (shapes ++ [.single]) := by
  rw [← laid.length] at leads fits place
  have between := laid.between free
  rcases leads.record result with ⟨own, recorded, unsent⟩
  have same : Log.queries (acts ++ [.recorded result]) = acts.queries := by
    rw [Log.queries_append, Log.queries_recorded, List.append_nil]
  refine .of_between free ?_ ?_ ?_ (between.record leads place)
  · show run.results ++ [result] = _
    rw [laid.results, Log.results_append, recorded]
  · rw [List.length_append, laid.length]
    rfl
  · exact (laid.fits.later own).concat (fits.after same between.bounded)

/-- A result leaves the run with its blocks, one more place being taken. -/
theorem Yields.laid {evaluator : Evaluator} {workflow : WorkflowDefinition}
    {run next : Run} {stage : Stage} {log acts : Log} {result : StepResult}
    {policy : Policy} {shapes : List Shape}
    (resolves : run.workflow.Resolves workflow)
    (yields : Yields evaluator run stage acts result policy next)
    (placed : run.Placed) (laid : Laid evaluator run stage log shapes) :
    ∃ shapes,
      Laid evaluator next .working (log ++ (acts ++ [.recorded result]))
        shapes := by
  have leads := yields.leads resolves placed
  cases yields with
  | settled free current decided =>
      rcases decides_current resolves current evaluator with ⟨number, decides⟩
      rw [decided] at decides
      rcases decides.begins with ⟨index, iteration, message⟩
      have fits := decides.fits
      rw [number] at fits index
      refine ⟨_, laid.settle free leads ?_ (Prod.ext index iteration)⟩
      exact (Shape.fits_congr (queries_asked_raised _ result)).mpr fits
  | passedOver present looping items passed =>
      rcases placed.current _ present with ⟨step, current, index, bindings⟩
      rcases passed.place with ⟨stepIndex, iteration⟩
      refine ⟨shapes, laid.record present ?_ leads ?_ ?_ rfl rfl rfl⟩
      · rw [looping]
        exact Progress.pending_looping items
      · intro size
        rw [Log.yielded_congr (queries_asked_raised _ result)]
        exact passed.explores.silent
      · rw [looping]
        exact Prod.ext (stepIndex.trans index) iteration
  | answered flying present answer =>
      rcases placed.current _ present with ⟨step, current, index, bindings⟩
      rcases place_of_answerOf? answer with ⟨stepIndex, iteration⟩
      rcases laid.awaited _ rfl _ _ present flying with ⟨pending, awaited⟩
      have explores : Log.Explores run.stepIndex [] := Log.explores_nil
      refine ⟨shapes, laid.record present pending leads ?_ ?_ rfl rfl rfl⟩
      · intro size
        exact explores.silent
      · exact Prod.ext (stepIndex.trans index) (iteration.trans awaited)

/-- What a log has of a run at a stage: blocks, which are all there if the run is
completed. -/
def Accounted (evaluator : Evaluator) (run : Run) (log : Log) : Stage → Prop
  | .over ending =>
      run.results = log.results ∧
        ∃ shapes, InBlocks evaluator run.workflow.totalSteps log shapes ∧
          (ending = .completed → shapes.length = run.workflow.totalSteps ∧
            log.results.map StepResult.place = layout 0 shapes)
  | stage => ∃ shapes, Laid evaluator run stage log shapes

/-- A step that becomes active begins its block. -/
theorem Laid.enter {evaluator : Evaluator} {run : Run} {log asked : Log}
    {shapes : List Shape} {active : ActiveStep}
    (laid : Laid evaluator run .working log shapes) (free : run.active = none)
    (asks : asked.AsksFor run.stepIndex)
    (fits : active.progress.shape.Fits evaluator asked run.stepIndex)
    (fresh : active.progress.recorded .working = 0) :
    Laid evaluator { run with active := some active } .working (log ++ asked)
      shapes := by
  have between := laid.between free
  rw [← laid.length] at asks fits
  refine .of_amid rfl ?_ laid.length (laid.fits.later asks.own) ⟨?_, ?_, ?_⟩
  · rw [Log.results_append, asks.results, List.append_nil]
    exact laid.results
  · refine bounded_append
      (fun query member => Nat.le_succ_of_le (between.bounded query member)) ?_
    intro query member
    exact Nat.le_of_eq (asks.own query member)
  · exact fits.after rfl between.bounded
  · rw [Log.results_append, asks.results, List.append_nil, between.there, fresh,
      List.take_zero, List.append_nil]

/-- A step that is left leaves its block in full. -/
theorem Laid.leave {evaluator : Evaluator} {run : Run} {log : Log}
    {shapes : List Shape} {active : ActiveStep}
    (laid : Laid evaluator run .working log shapes)
    (present : run.active = some active)
    (finished :
      active.progress = .single true ∨
        ∃ loop, active.progress = .looping loop ∧ loop.ahead = []) :
    Laid evaluator { run.nextStep with active := none } .working log
      (shapes ++ [active.progress.shape]) := by
  have amid := laid.amid active present
  refine .of_between rfl laid.results ?_ (laid.fits.concat amid.fits) ⟨?_, ?_⟩
  · rw [List.length_append, laid.length]
    rfl
  · rw [List.length_append]
    exact amid.bounded
  · rw [amid.there, Progress.take_left finished, layout_concat, Nat.zero_add]

/-- A request is sent for the result that is to come, whose place is still free. -/
theorem Ready.pending {evaluator : Evaluator} {run : Run}
    {active sender : ActiveStep} {asked : Log} {scope : DispatchScope}
    {iteration : Option Iteration}
    (ready : Ready evaluator run active asked sender scope iteration)
    (dispatch : Dispatch) :
    sender.progress.Pending (.waiting dispatch) ∧
      iteration = sender.progress.iteration ∧
      sender.progress.shape = active.progress.shape ∧
      sender.progress.recorded (.waiting dispatch) =
        active.progress.recorded .working := by
  cases ready with
  | once fresh =>
      rw [fresh]
      exact ⟨⟨rfl, dispatch, rfl⟩, rfl, rfl, rfl⟩
  | item looping items bound unguarded =>
      rw [looping]
      exact ⟨Progress.pending_looping items, rfl, rfl, rfl⟩
  | guardedItem looping items bound guarded answered accepted =>
      rw [looping]
      exact ⟨Progress.pending_looping items, rfl, rfl, rfl⟩

/-- A request that is sent takes no place. -/
theorem Laid.send {evaluator : Evaluator} {run : Run} {log asked : Log}
    {shapes : List Shape} {active sender : ActiveStep} {scope : DispatchScope}
    {iteration : Option Iteration} (laid : Laid evaluator run .working log shapes)
    (present : run.active = some active) (explores : asked.Explores run.stepIndex)
    (ready : Ready evaluator run active asked sender scope iteration) :
    Laid evaluator (run.send sender scope iteration).1
      (.waiting (run.send sender scope iteration).2)
      (log ++ (asked ++ [.sent (run.send sender scope iteration).2])) shapes := by
  have amid := laid.amid active present
  rcases ready.pending (run.send sender scope iteration).2 with
    ⟨pending, place, shape, recorded⟩
  rcases explores.asks.sent (run.send sender scope iteration).2 with
    ⟨queries, unrecorded, sent⟩
  have results :
      Log.results (log ++ (asked ++ [.sent (run.send sender scope iteration).2])) =
        log.results := by
    rw [Log.results_append, unrecorded, List.append_nil]
  have own := explores.asks.own
  rw [← laid.length] at own
  refine ⟨?_, laid.length, ?_, ?_, ?_, ?_⟩
  · rw [results]
    exact laid.results
  · exact laid.fits.later (queries ▸ own)
  · rintro ⟨⟩
  · rintro _ ⟨⟩
    refine ⟨?_, ?_, ?_⟩
    · refine bounded_append amid.bounded ?_
      rw [queries]
      intro query member
      exact Nat.le_of_eq (own query member)
    · rw [shape]
      refine (Shape.fits_append_right fun size => ?_).mpr amid.fits
      rw [Log.yielded_congr queries]
      exact explores.silent
    · rw [results, shape, recorded]
      exact amid.there
  · rintro dispatch ⟨⟩ _ _ ⟨⟩ ⟨⟩
    exact ⟨pending, place⟩

theorem Accounted.laid {evaluator : Evaluator} {run next : Run} {stage : Stage}
    {log acts : Log} {result : StepResult} {policy : Policy}
    (accounted : Accounted evaluator run log stage)
    (yields : Yields evaluator run stage acts result policy next) :
    ∃ shapes, Laid evaluator run stage log shapes := by
  cases yields <;> exact accounted

theorem Yields.results_eq {evaluator : Evaluator} {run next : Run} {stage : Stage}
    {acts : Log} {result : StepResult} {policy : Policy}
    (yields : Yields evaluator run stage acts result policy next) :
    next.results = run.results ++ [result] ∧ next.workflow = run.workflow := by
  cases yields <;> exact ⟨rfl, rfl⟩

/-- Every move keeps the blocks in order, and the last one leaves what is said of
its ending. -/
theorem Move.accounted {evaluator : Evaluator} {workflow : WorkflowDefinition}
    {run next : Run} {stage later : Stage} {log acts : Log}
    (resolves : run.workflow.Resolves workflow)
    (moved : Move evaluator run stage acts next later) (placed : run.Placed)
    (accounted : Accounted evaluator run log stage) :
    Accounted evaluator next (log ++ acts) later := by
  cases moved with
  | goesOn yields lasting =>
      rcases accounted.laid yields with ⟨shapes, laid⟩
      exact yields.laid resolves placed laid
  | stops yields halting =>
      rcases accounted.laid yields with ⟨shapes, laid⟩
      rcases yields.laid resolves placed laid with ⟨shapes, laid⟩
      rcases laid.inBlocks (yields.placed placed) with ⟨shapes, blocks⟩
      rcases yields.results_eq with ⟨results, same⟩
      rw [same] at blocks
      exact ⟨results.symm.trans laid.results, shapes, blocks, nofun⟩
  | enters free current decided =>
      rcases accounted with ⟨shapes, laid⟩
      rcases decides_current resolves current evaluator with ⟨number, decides⟩
      rw [decided] at decides
      have asks := decides.asks
      have fits := decides.fits
      rw [number] at asks fits
      refine ⟨shapes, laid.enter free asks fits ?_⟩
      rcases decides.begins with
        ⟨index, bindings, single | ⟨loop, looping, done, ahead⟩⟩
      · rw [single]
        rfl
      · rw [looping]
        exact done
  | leaves present finished =>
      rcases accounted with ⟨shapes, laid⟩
      rw [List.append_nil]
      exact ⟨_, laid.leave present finished⟩
  | sends present ready =>
      rcases accounted with ⟨shapes, laid⟩
      rcases placed.current _ present with ⟨step, current, index, bindings⟩
      have explores := ready.explores
      rw [index] at explores
      exact ⟨shapes, laid.send present explores ready⟩
  | completes free done =>
      rcases accounted with ⟨shapes, laid⟩
      have between := laid.between free
      have length : shapes.length = run.workflow.totalSteps := by
        rw [laid.length]
        exact Nat.le_antisymm placed.within done
      rw [List.append_nil]
      exact ⟨laid.results, shapes,
        .of_full (Nat.le_of_eq length) laid.fits between.there,
        fun _ => ⟨length, between.there⟩⟩
  | cancels =>
      rcases accounted with ⟨shapes, laid⟩
      rcases laid.inBlocks placed with ⟨shapes, blocks⟩
      rw [List.append_nil]
      exact ⟨laid.results, shapes, blocks, nofun⟩

/-- Whatever the answers are, the results of a run are in blocks. -/
theorem Reaches.accounted {evaluator : Evaluator} {request : RunRequest}
    {first run : Run} {stage : Stage} {log : Log} (begins : Begins request first)
    (reached : Reaches evaluator first .working log run stage) :
    Accounted evaluator run log stage := by
  induction reached with
  | refl =>
      refine ⟨[],
        .of_between begins.active begins.results begins.stepIndex.symm ?_
          ⟨?_, rfl⟩⟩
      · intro index shape present
        cases present
      · intro query member
        exact (List.not_mem_nil member).elim
  | move reached moved hypothesis =>
      exact moved.accounted (reached.resolves begins) (reached.placed begins)
        hypothesis

/-- Wherever moves lead to, the results of the run are those recorded. -/
theorem Reaches.results_eq {evaluator : Evaluator} {request : RunRequest}
    {first run : Run} {stage : Stage} {log : Log} (begins : Begins request first)
    (reached : Reaches evaluator first .working log run stage) :
    run.results = log.results := by
  have accounted := reached.accounted begins
  rcases stage with _ | dispatch | ending
  · rcases accounted with ⟨shapes, laid⟩
    exact laid.results
  · rcases accounted with ⟨shapes, laid⟩
    exact laid.results
  · exact accounted.1

end Run

namespace Engine

/-- Canceling a run, by a call or by the client's answer, gives a report with
exactly these results. -/
structure CancelsWith (evaluator : Evaluator) (engine : Engine)
    (dispatch : Dispatch) (results : List StepResult) : Prop where
  call : ∀ reason now, ∃ report, (engine.cancel reason now).1 = some report ∧
    report.status = .canceled ∧ report.results = results
  answer :
    ∀ now, ∃ report after,
      engine.respond evaluator dispatch.token .canceled now =
          pure (.finished report, after) ∧ report.status = .canceled ∧
        report.results = results

theorem cancelsWith_of_awaits {evaluator : Evaluator} {engine : Engine} {run : Run}
    {dispatch : Dispatch} {inFlight : InFlight} {active : ActiveStep}
    (running : engine.run = some run)
    (awaits : run.Awaits dispatch inFlight active) :
    CancelsWith evaluator engine dispatch run.results := by
  constructor
  · intro reason now
    refine ⟨run.report .canceled reason now, ?_, rfl, rfl⟩
    rw [cancel, running]
  · intro now
    exact ⟨_, _, respond_canceled running awaits evaluator now, rfl, rfl⟩

/-- Whatever the answers are, the results of a play are in blocks: those of the
steps behind it in full and that of the current step as far as it has come, all of
them if the run completes.  A canceled run has exactly the results that were
recorded before. -/
theorem results_in_blocks {engine : Engine} {request : RunRequest}
    {workflow : ResolvedWorkflow} (free : engine.run = none)
    (resolved : request.workflow.resolve request.document = .ok workflow)
    (evaluator : Evaluator) (now : Int) (answers : List (Outcome × Int)) :
    ∃ log directive after shapes,
      engine.play evaluator request now answers = ⟨log, .ok directive, after⟩ ∧
        InBlocks evaluator request.workflow.steps.length log shapes ∧
        (log.results.Pairwise fun earlier later =>
          earlier.stepIndex ≤ later.stepIndex) ∧
        match directive with
        | .finished report =>
            report.results = log.results ∧
              (report.stopped = false → report.status ≠ .canceled →
                shapes.length = request.workflow.steps.length ∧
                  report.results.map StepResult.place = layout 0 shapes)
        | .dispatch dispatch =>
            after.results = log.results ∧
              after.CancelsWith evaluator dispatch log.results
        | .stale => False := by
  rcases brings_play free resolved evaluator now answers with
    ⟨played, equal, brings⟩
  have begins : Run.Begins request (engine.beginRun request workflow now) :=
    .beginRun resolved now
  have declared : workflow.totalSteps = request.workflow.steps.length :=
    (resolves_of_resolve resolved).length
  rcases brings with ⟨next, dispatch, errors, value, reached⟩ |
      ⟨next, ending, reason, later, errors, value, canceled, reached⟩
  · rcases reached.accounted begins with ⟨shapes, laid⟩
    rcases laid.inBlocks (reached.placed begins) with ⟨shapes, blocks⟩
    rcases reached.awaits with ⟨inFlight, active, awaits⟩
    have same : next.workflow = workflow := reached.workflow_eq
    rw [value] at equal
    rw [same, declared] at blocks
    refine ⟨_, _, _, shapes, equal, blocks, blocks.ordered, laid.results, ?_⟩
    rw [← laid.results]
    exact cancelsWith_of_awaits rfl awaits
  · rcases reached.accounted begins with ⟨results, shapes, blocks, full⟩
    have same : next.workflow = workflow := reached.workflow_eq
    rw [value] at equal
    rw [same, declared] at blocks full
    refine ⟨_, _, _, shapes, equal, blocks, blocks.ordered, results, ?_⟩
    intro unstopped uncanceled
    show _ ∧ next.results.map StepResult.place = layout 0 shapes
    rw [results]
    cases ending with
    | completed => exact full rfl
    | stopped => cases unstopped
    | canceled => exact (uncanceled rfl).elim

end Engine

/-! ### A loop of two items -/

/-- A workflow whose steps send a request for a user, and which stops at
failures. -/
def userWorkflow (steps : List StepDefinition) : RunRequest :=
  let request : Request :=
    { name := "user"
      protocol := .http
      method := "GET"
      url := "/users"
      headers := .empty
      body := none
      guard := none
      loop := none
      options := .inherit
      line := 1 }
  let workflow : WorkflowDefinition :=
    { name := "users"
      description := none
      tags := []
      policy := .stop
      options := .inherit
      bindings := .empty
      steps := steps
      line := 2 }
  ⟨⟨none, .empty, .inherit, [request], [workflow]⟩, workflow, .workflow, .empty⟩

/-- The request is sent for each user. -/
def visitUsers : RunRequest :=
  userWorkflow
    [{ StepDefinition.ofKind .forEach with
      using_ := some "user"
      loop := some ⟨"users", "user", 3⟩ }]

/-- There are two users, whatever the condition. -/
def twoUsers : Evaluator :=
  fun _ => .ok (.list [.data (.bool true), .data (.bool false)])

theorem results_in_blocks_visitUsers :
    ∃ log directive after shapes,
      Engine.idle.play twoUsers visitUsers 0
            [(.skipped "later", 1), (.skipped "later", 2)] =
          ⟨log, .ok directive, after⟩ ∧ InBlocks twoUsers 1 log shapes ∧
        log.results.map StepResult.place =
          [(0, some ⟨1, 2⟩), (0, some ⟨2, 2⟩)] := by
  obtain ⟨log, directive, after, shapes, played, blocks, rest⟩ :=
    Engine.results_in_blocks (rfl : Engine.idle.run = none)
      (rfl : visitUsers.workflow.resolve visitUsers.document = .ok _) twoUsers 0
      [(.skipped "later", 1), (.skipped "later", 2)]
  refine ⟨log, directive, after, shapes, played, blocks, ?_⟩
  have same : log = (Engine.idle.play twoUsers visitUsers 0
      [(.skipped "later", 1), (.skipped "later", 2)]).log := by
    rw [played]
  rw [same]
  decide +kernel

end RequestFlow
