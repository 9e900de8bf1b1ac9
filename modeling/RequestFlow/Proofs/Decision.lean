import RequestFlow.Proofs.Ways

/-!
# What a step decides

Before a step becomes active or leaves a result, it puts conditions of its own to
the evaluator and does nothing else.  Main statement: what it comes to fits the
loop that it has asked for.  It becomes active in a loop exactly if a loop source
of its own has yielded items, and the loop then has as many; in all other cases it
has one result, at most one dispatch and no place in a loop.
-/

namespace RequestFlow

open Condition

/-! ## Acts of a deciding step -/

namespace Log

/-- The acts are conditions of one step that were put to the evaluator. -/
def AsksFor (index : Nat) (log : Log) : Prop :=
  ∀ act ∈ log, ∃ query, act = .noted (.asked query) ∧ query.step = index + 1

/-- The loop source of a step has yielded so many items. -/
def Yielded (evaluator : Evaluator) (log : Log) (index size : Nat) : Prop :=
  ∃ query ∈ log.queries, query.step = index + 1 ∧ query.role = .loop ∧
    ∃ items, (evaluator query).bind Value.items = .ok items ∧ items.length = size

variable {evaluator : Evaluator} {index size : Nat} {log first second : Log}

/-- A step that only asks records nothing. -/
theorem AsksFor.results (asks : log.AsksFor index) : log.results = [] := by
  apply List.filterMap_eq_nil_iff.mpr
  intro act member
  rcases asks act member with ⟨query, rfl, own⟩
  rfl

/-- A step that only asks sends nothing. -/
theorem AsksFor.dispatches (asks : log.AsksFor index) : log.dispatches = [] := by
  apply List.filterMap_eq_nil_iff.mpr
  intro act member
  rcases asks act member with ⟨query, rfl, own⟩
  rfl

/-- The questions of a step are asked in its own name. -/
theorem AsksFor.own (asks : log.AsksFor index) :
    ∀ query ∈ log.queries, query.step = index + 1 := by
  intro query member
  rcases List.mem_filterMap.mp member with ⟨act, act_mem, equal⟩
  rcases asks act act_mem with ⟨asked, rfl, own⟩
  rcases Option.some.inj equal with rfl
  exact own

/-- A request that is sent after conditions were asked for. -/
theorem AsksFor.sent (asks : log.AsksFor index) (dispatch : Dispatch) :
    Log.queries (log ++ [.sent dispatch]) = log.queries ∧
      Log.results (log ++ [.sent dispatch]) = [] ∧
        Log.dispatches (log ++ [.sent dispatch]) = [dispatch] := by
  refine ⟨?_, ?_, ?_⟩
  · rw [queries_append, queries_sent, List.append_nil]
  · rw [results_append, asks.results, results_sent, List.append_nil]
  · rw [dispatches_append, asks.dispatches, dispatches_sent, List.nil_append]

/-- A loop has its size from one of two parts of a log exactly if one of them has
the answer. -/
theorem yielded_append :
    (first ++ second).Yielded evaluator index size ↔
      first.Yielded evaluator index size ∨
        second.Yielded evaluator index size := by
  simp only [Yielded, queries_append, List.mem_append, or_and_right, exists_or]

/-- The acts are conditions of one step, and no loop source is among them. -/
structure Explores (index : Nat) (log : Log) : Prop where
  asks : log.AsksFor index
  loopless : ∀ query ∈ log.queries, query.role ≠ .loop

theorem explores_nil : Explores index [] :=
  ⟨fun _ member => (List.not_mem_nil member).elim,
    fun _ member => (List.not_mem_nil member).elim⟩

/-- A question that is not about a loop is part of exploring a step. -/
theorem explores_query (query : Query) (own : query.step = index + 1)
    (other : query.role ≠ .loop) : Explores index [.noted (.asked query)] := by
  constructor
  · intro act member
    exact ⟨query, List.mem_singleton.mp member, own⟩
  · intro asked member
    rcases List.mem_singleton.mp member with rfl
    exact other

/-- As long as a step is only explored, its loop has no size. -/
theorem Explores.silent (explores : log.Explores index) {other : Nat} :
    ¬ log.Yielded evaluator other size := by
  rintro ⟨query, member, own, role, yields⟩
  exact explores.loopless query member role

/-- Only the questions of a log say what size a loop has. -/
theorem yielded_congr (same : first.queries = second.queries) :
    first.Yielded evaluator index size ↔ second.Yielded evaluator index size := by
  unfold Yielded
  rw [same]

/-- The questions of other steps say nothing about a loop. -/
theorem not_yielded_of_foreign
    (foreign : ∀ query ∈ log.queries, query.step ≠ index + 1) :
    ¬ log.Yielded evaluator index size := by
  rintro ⟨query, member, own, role, yields⟩
  exact foreign query member own

end Log

/-! ## The shape of a step -/

/-- How many results a step leaves. -/
inductive Shape where
  /-- One, without a place in a loop. -/
  | single
  /-- One for each item of a loop. -/
  | looped (size : Nat)
  deriving DecidableEq

/-- A step has the shape of a loop exactly if its loop source has yielded so many
items, and some. -/
def Shape.Fits (evaluator : Evaluator) (log : Log) (index : Nat) (shape : Shape) :
    Prop :=
  ∀ size, shape = .looped size ↔ 0 < size ∧ log.Yielded evaluator index size

/-- The shape of a step by how far it is. -/
def Progress.shape : Progress → Shape
  | single _ => .single
  | looping loop => .looped loop.size

/-- The shape of a step by what it does next. -/
def NextAction.shape : NextAction → Shape
  | dispatch active => active.progress.shape
  | record _ _ => .single

/-- Acts in front that say nothing about the loop do not bear on the shape of a
step. -/
theorem Shape.fits_append_left {evaluator : Evaluator} {first second : Log}
    {index : Nat} {shape : Shape}
    (silent : ∀ size, ¬ first.Yielded evaluator index size) :
    shape.Fits evaluator (first ++ second) index ↔
      shape.Fits evaluator second index := by
  simp only [Fits, Log.yielded_append, silent, false_or]

/-- Acts behind that say nothing about the loop do not bear on it, either. -/
theorem Shape.fits_append_right {evaluator : Evaluator} {first second : Log}
    {index : Nat} {shape : Shape}
    (silent : ∀ size, ¬ second.Yielded evaluator index size) :
    shape.Fits evaluator (first ++ second) index ↔
      shape.Fits evaluator first index := by
  simp only [Fits, Log.yielded_append, silent, or_false]

theorem Shape.fits_congr {evaluator : Evaluator} {first second : Log} {index : Nat}
    {shape : Shape} (same : first.queries = second.queries) :
    shape.Fits evaluator first index ↔ shape.Fits evaluator second index := by
  simp only [Fits, Log.yielded_congr same]

/-- A step fits a single place if it has no loop with items. -/
theorem Shape.fits_single {evaluator : Evaluator} {log : Log} {index : Nat}
    (silent : ∀ size, 0 < size → ¬ log.Yielded evaluator index size) :
    Shape.single.Fits evaluator log index := by
  intro size
  constructor
  · intro impossible
    cases impossible
  · rintro ⟨positive, yielded⟩
    exact (silent size positive yielded).elim

/-! ## What a decision leads to -/

/-- What a step does next is about the step, and begins at its beginning. -/
def NextAction.Begins (core : StepCore) : NextAction → Prop
  | dispatch active =>
      active.stepIndex = core.index ∧ active.bindings = core.bindings ∧
        (active.progress = .single false ∨
          ∃ loop,
            active.progress = .looping loop ∧ loop.done = 0 ∧ loop.ahead ≠ [])
  | record result _ =>
      result.stepIndex = core.index ∧ result.iteration = none ∧
        result.message.isSome

/-- A decision asks for conditions of the step and comes to what they make of
it. -/
structure Decides (evaluator : Evaluator) (core : StepCore)
    (decision : Traced NextAction) : Prop where
  asks : decision.log.AsksFor core.index
  begins : decision.value.Begins core
  fits : decision.value.shape.Fits evaluator decision.log core.index

section Decisions

variable {context : StepContext} {core : StepCore} {suits : Target → Prop}

theorem begins_record (request branch : Option String) (policy : Policy)
    (status : StepStatus) (message : String) (error : Option String) :
    (core.record request branch policy status message error).Begins core :=
  ⟨rfl, rfl, rfl⟩

/-- A step becomes active with its request still to be sent, or in front of the
first item of its loop. -/
theorem begins_activate (target : Target) (guard : Option SourceCondition)
    {progress : Progress}
    (fresh :
      progress = .single false ∨
        ∃ loop, progress = .looping loop ∧ loop.done = 0 ∧ loop.ahead ≠ []) :
    (target.activate context core guard progress).Begins core :=
  ⟨rfl, rfl, fresh⟩

/-- A decision that goes by the rules explores its own step. -/
theorem Log.SoundFor.explores {log : Log} (sound : log.SoundFor context core) :
    log.Explores core.index := by
  constructor
  · intro act member
    rcases sound act member with ⟨role, condition, value, rfl, _⟩
    exact ⟨context.queryFor core role condition, rfl, rfl⟩
  · intro query member
    rcases sound.mem_queries member with ⟨role, condition, value, rfl, other, _⟩
    exact other

/-- The last condition alone can be a loop source, so the items that it yields
tell the shape. -/
theorem Log.SoundFor.fits_asked {asked : Log} (sound : asked.SoundFor context core)
    {role : Role} {condition : SourceCondition} {shape : Shape} :
    shape.Fits context.evaluator (asked ++ [context.asked core role condition])
        core.index ↔
      ∀ size,
        shape = .looped size ↔
          0 < size ∧ role = .loop ∧
            ∃ items,
              (context.evaluator (context.queryFor core role condition)).bind
                    Value.items = .ok items ∧ items.length = size := by
  have last (size : Nat) :
      Log.Yielded context.evaluator [context.asked core role condition] core.index
          size ↔
        role = .loop ∧
          ∃ items,
            (context.evaluator (context.queryFor core role condition)).bind
                  Value.items = .ok items ∧ items.length = size := by
    constructor
    · rintro ⟨query, member, own, loops, yields⟩
      rcases List.mem_singleton.mp member with rfl
      exact ⟨loops, yields⟩
    · rintro ⟨loops, yields⟩
      exact ⟨_, List.mem_singleton_self _, rfl, loops, yields⟩
  rw [Shape.fits_append_left fun _ => sound.explores.silent, Shape.Fits]
  simp only [last]

/-- Whichever way a decision goes, it asks for conditions of the step and comes to
what they make of it. -/
theorem Way.decides {decision : Traced NextAction}
    (way : Way context core suits decision) :
    Decides context.evaluator core decision := by
  have asks : decision.log.AsksFor core.index := by
    intro act member
    rcases way.mem_asked act member with ⟨role, condition, equal⟩
    exact ⟨context.queryFor core role condition, equal, rfl⟩
  cases way with
  | settles sound =>
      refine ⟨asks, begins_record _ _ _ _ _ _, ?_⟩
      exact Shape.fits_single fun _ _ => sound.explores.silent
  | @fails asked role condition error request branch policy sound fault =>
      refine ⟨asks, begins_record _ _ _ _ _ _,
        sound.fits_asked.mpr fun size => ⟨nofun, ?_⟩⟩
      rintro ⟨_, rfl, items, yields, _⟩
      rw [Query.fault?_of_loop rfl, yields] at fault
      cases fault
  | idles sound yields =>
      refine ⟨asks, begins_record _ _ _ _ _ _,
        sound.fits_asked.mpr fun size => ⟨nofun, ?_⟩⟩
      rintro ⟨positive, _, items, equal, length⟩
      rcases Except.ok.inj (yields.symm.trans equal) with rfl
      exact (Nat.ne_of_gt positive length.symm).elim
  | sends sound suited single affirmed =>
      refine ⟨asks, begins_activate _ _ (.inl rfl), ?_⟩
      exact Shape.fits_single fun _ _ => sound.explores.silent
  | @loops asked target loop items sound suited looping yields nonempty =>
      refine ⟨asks, begins_activate _ _ (.inr ⟨_, rfl, rfl, nonempty⟩),
        sound.fits_asked.mpr fun size => ?_⟩
      have shape :
          (target.activate context core target.guard
              (.looping ⟨0, items, loop.name,
                Scope.loopKeys loop.name context.origin.promotes⟩)).shape =
            .looped items.length :=
        congrArg Shape.looped (Nat.zero_add _)
      rw [shape, Shape.looped.injEq]
      constructor
      · rintro rfl
        exact ⟨List.length_pos_iff.mpr nonempty, rfl, items, yields, rfl⟩
      · rintro ⟨_, _, others, equal, length⟩
        rcases Except.ok.inj (yields.symm.trans equal) with rfl
        exact length

end Decisions

/-- What a resolved step does next is decided by conditions of its own. -/
theorem ResolvedStep.Resolves.decides {workflow : WorkflowDefinition} {index : Nat}
    {definition : StepDefinition} {step : ResolvedStep}
    (resolves : step.Resolves workflow index definition) (context : StepContext) :
    Decides context.evaluator step.core (step.next context) := by
  have way : Way context step.core (fun _ => True) (step.next context) :=
    resolves.way context (fun _ _ _ _ _ _ _ => trivial) fun _ _ _ _ _ => trivial
  exact way.decides

end RequestFlow
