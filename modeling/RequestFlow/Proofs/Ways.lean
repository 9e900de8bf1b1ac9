import RequestFlow.Proofs.Resolution
import RequestFlow.Run.Engine

/-!
# The ways a decision can go

A step decides what it does next by conditions of its own.  This module says once
which ways this can go, each with the conditions that were evaluated and what the
step comes to: it ends without a fault, a condition ends it, its loop has no
items, it sends its request once, or it sends it for the items of a loop.  What
holds of a decision is then shown way by way.
-/

namespace RequestFlow

open Condition

/-- The error with which a condition cannot be evaluated, or with which the source
of a loop yields no list. -/
def Condition.Query.fault? (evaluator : Evaluator) (query : Query) :
    Option ValueError :=
  match evaluator query with
  | .error error => some error
  | .ok value =>
      if query.role = .loop then
        match value.items with
        | .error error => some error
        | .ok _ => none
      else none

theorem Condition.Query.fault?_of_error {evaluator : Evaluator} {query : Query}
    {error : ValueError} (failed : evaluator query = .error error) :
    query.fault? evaluator = some error := by
  rw [fault?, failed]

/-- Only the source of a loop can have a value and still be at fault. -/
theorem Condition.Query.fault?_of_ok {evaluator : Evaluator} {query : Query}
    {value : Value} (answered : evaluator query = .ok value)
    (other : query.role ≠ .loop) : query.fault? evaluator = none := by
  rw [fault?, answered]
  exact if_neg other

/-- A loop source is without fault exactly if it yields items. -/
theorem Condition.Query.fault?_of_loop {evaluator : Evaluator} {query : Query}
    (role : query.role = .loop) :
    query.fault? evaluator =
      match (evaluator query).bind Value.items with
      | .error error => some error
      | .ok _ => none := by
  rw [fault?]
  cases evaluator query with
  | error error => rfl
  | ok value =>
      simp only [role, if_true]
      rfl

/-- The last act is that a condition was evaluated and was true. -/
def Log.Affirmed (evaluator : Evaluator) (query : Query) (log : Log) : Prop :=
  ∃ earlier value, log = earlier ++ [.noted (.asked query)] ∧
    evaluator query = .ok value ∧ value.isTruthy = true

theorem Log.Affirmed.prepend {evaluator : Evaluator} {query : Query} {log : Log}
    (affirmed : log.Affirmed evaluator query) (before : Log) :
    Log.Affirmed evaluator query (before ++ log) := by
  rcases affirmed with ⟨earlier, value, rfl, answered, accepted⟩
  exact ⟨before ++ earlier, value, (List.append_assoc _ _ _).symm, answered,
    accepted⟩

namespace StepContext

/-- A condition of a step as it is put to the evaluator. -/
def queryFor (context : StepContext) (core : StepCore) (role : Role)
    (condition : SourceCondition) : Query :=
  queryOf context.workflow.name core.index role condition context.scope

/-- A condition of a step was put to the evaluator. -/
def asked (context : StepContext) (core : StepCore) (role : Role)
    (condition : SourceCondition) : Act :=
  .noted (.asked (context.queryFor core role condition))

end StepContext

/-- Conditions of a step were evaluated without a fault, and none of them is a
loop source. -/
def Log.SoundFor (context : StepContext) (core : StepCore) (log : Log) : Prop :=
  ∀ act ∈ log, ∃ role condition value,
    act = context.asked core role condition ∧ role ≠ .loop ∧
      context.evaluator (context.queryFor core role condition) = .ok value

/-- The ways a decision of a step can go. -/
inductive Way (context : StepContext) (core : StepCore) (suits : Target → Prop) :
    Traced NextAction → Prop where
  /-- The step ends without a fault. -/
  | settles {asked : Log} {request branch : Option String} {policy : Policy}
      {status : StepStatus} {message : String}
      (sound : asked.SoundFor context core) :
      Way context core suits
        ⟨asked, core.record request branch policy status message none⟩
  /-- A condition cannot be evaluated. -/
  | fails {asked : Log} {role : Role} {condition : SourceCondition}
      {error : ValueError} {request branch : Option String} {policy : Policy}
      (sound : asked.SoundFor context core)
      (fault :
        (context.queryFor core role condition).fault? context.evaluator =
          some error) :
      Way context core suits ⟨asked ++ [context.asked core role condition],
        core.record request branch policy .failed (conditionFailure role error)
          (some error.message)⟩
  /-- The loop of the step has no items. -/
  | idles {asked : Log} {condition : SourceCondition}
      {request branch : Option String} {policy : Policy} {message : String}
      (sound : asked.SoundFor context core)
      (yields :
        (context.evaluator (context.queryFor core .loop condition)).bind
            Value.items = .ok []) :
      Way context core suits ⟨asked ++ [context.asked core .loop condition],
        core.record request branch policy .skipped message none⟩
  /-- The step sends its request once, its condition being the last one and
  true. -/
  | sends {asked : Log} {target : Target} (sound : asked.SoundFor context core)
      (suited : suits target) (single : target.loop = none)
      (affirmed : ∀ guard, target.guard = some guard →
          asked.Affirmed context.evaluator (context.queryFor core .guard guard)) :
      Way context core suits
        ⟨asked, target.activate context core none (.single false)⟩
  /-- The step sends its request for the items of a loop. -/
  | loops {asked : Log} {target : Target} {loop : LoopDefinition}
      {items : List Value} (sound : asked.SoundFor context core)
      (suited : suits target) (looping : target.loop = some loop)
      (yields :
        (context.evaluator
            (context.queryFor core .loop (Target.loopSource core loop))).bind
            Value.items = .ok items)
      (nonempty : items ≠ []) :
      Way context core suits ⟨asked ++
          [context.asked core .loop (Target.loopSource core loop)],
        target.activate context core target.guard
          (.looping ⟨0, items, loop.name,
            Scope.loopKeys loop.name context.origin.promotes⟩)⟩

section Decisions

variable {context : StepContext} {core : StepCore} {suits : Target → Prop}

theorem soundFor_nil : Log.SoundFor context core [] :=
  fun _ member => (List.not_mem_nil member).elim

/-- Sound logs are put one behind the other. -/
theorem Log.SoundFor.append {first second : Log}
    (left : first.SoundFor context core) (right : second.SoundFor context core) :
    (first ++ second).SoundFor context core := by
  intro act member
  rcases List.mem_append.mp member with member | member
  · exact left act member
  · exact right act member

theorem soundFor_asked {role : Role} {condition : SourceCondition} {value : Value}
    (other : role ≠ .loop)
    (answered :
      context.evaluator (context.queryFor core role condition) = .ok value) :
    Log.SoundFor context core [context.asked core role condition] := by
  intro act member
  exact ⟨role, condition, value, List.mem_singleton.mp member, other, answered⟩

/-- The conditions are those of the step. -/
theorem Log.SoundFor.mem_queries {log : Log} (sound : log.SoundFor context core)
    {query : Query} (member : query ∈ log.queries) :
    ∃ role condition value, query = context.queryFor core role condition ∧
      role ≠ .loop ∧ context.evaluator query = .ok value := by
  rcases List.mem_filterMap.mp member with ⟨act, there, equal⟩
  rcases sound act there with ⟨role, condition, value, rfl, other, answered⟩
  rcases Option.some.inj equal with rfl
  exact ⟨role, condition, value, rfl, other, answered⟩

/-- All that is asked in a decision is a condition of the step. -/
theorem Way.mem_asked {decision : Traced NextAction}
    (way : Way context core suits decision) :
    ∀ act ∈ decision.log, ∃ role condition,
      act = context.asked core role condition := by
  have sounds {asked : Log} (sound : asked.SoundFor context core) :
      ∀ act ∈ asked, ∃ role condition,
        act = context.asked core role condition := by
    intro act member
    rcases sound act member with ⟨role, condition, value, equal, _⟩
    exact ⟨role, condition, equal⟩
  have last {asked : Log} (sound : asked.SoundFor context core) (role : Role)
      (condition : SourceCondition) :
      ∀ act ∈ asked ++ [context.asked core role condition],
        ∃ role condition, act = context.asked core role condition := by
    intro act member
    rcases List.mem_append.mp member with member | member
    · exact sounds sound act member
    · exact ⟨role, condition, List.mem_singleton.mp member⟩
  cases way with
  | settles sound => exact sounds sound
  | fails sound fault => exact last sound _ _
  | idles sound yields => exact last sound _ _
  | sends sound suited single affirmed => exact sounds sound
  | loops sound suited looping yields nonempty => exact last sound _ _

/-- A decision goes its way also after sound conditions. -/
theorem Way.prepend {before : Log} {decision : Traced NextAction}
    (sound : before.SoundFor context core)
    (way : Way context core suits decision) :
    Way context core suits ⟨before ++ decision.log, decision.value⟩ := by
  cases way with
  | settles later => exact .settles (sound.append later)
  | fails later fault =>
      rw [← List.append_assoc]
      exact .fails (sound.append later) fault
  | idles later yields =>
      rw [← List.append_assoc]
      exact .idles (sound.append later) yields
  | sends later suited single affirmed =>
      exact .sends (sound.append later) suited single
        fun guard present => (affirmed guard present).prepend before
  | loops later suited looping yields nonempty =>
      rw [← List.append_assoc]
      exact .loops (sound.append later) suited looping yields nonempty

theorem way_record (request branch : Option String) (policy : Policy)
    (status : StepStatus) (message : String) :
    Way context core suits
      (pure (core.record request branch policy status message none)) :=
  .settles soundFor_nil

/-- A decision by one condition, and by what follows it. -/
theorem ask_bind (role : Role) (condition : SourceCondition)
    (later : Except ValueError Value → Traced NextAction) :
    context.ask core role condition >>= later =
      ⟨[context.asked core role condition] ++
          (later (context.evaluator (context.queryFor core role condition))).log,
        (later
          (context.evaluator (context.queryFor core role condition))).value⟩ :=
  rfl

/-- A decision by one condition that is no loop source, and that ends the step if
it is faulty. -/
theorem Way.after_ask {role : Role} (other : role ≠ .loop)
    {condition : SourceCondition}
    {later : Except ValueError Value → Traced NextAction}
    (fails : ∀ error, ∃ request branch policy,
        later (.error error) =
          pure (core.record request branch policy .failed
            (conditionFailure role error) (some error.message)))
    (goesOn : ∀ value, Way context core suits (later (.ok value))) :
    Way context core suits (context.ask core role condition >>= later) := by
  rw [ask_bind]
  cases answered : context.evaluator (context.queryFor core role condition) with
  | error error =>
      rcases fails error with ⟨request, branch, policy, equal⟩
      rw [equal, Traced.log_pure, Traced.value_pure, List.append_nil]
      exact .fails soundFor_nil (Query.fault?_of_error answered)
  | ok value => exact (goesOn value).prepend (soundFor_asked other answered)

/-- A target is sent once, for each item of its loop, or not at all: the two ways
of a target, and then any target. -/
theorem way_nextSingle {target : Target} (suited : suits target)
    (single : target.loop = none) :
    Way context core suits (target.nextSingle context core) := by
  rw [Target.nextSingle]
  cases present : target.guard with
  | none =>
      refine .sends soundFor_nil suited single ?_
      intro guard equal
      cases present.symm.trans equal
  | some guard =>
      -- A dispatch tells that its condition was true, which `Way.after_ask` would
      -- forget.
      dsimp only
      rw [ask_bind]
      cases answered : context.evaluator (context.queryFor core .guard guard) with
      | error error => exact .fails soundFor_nil (Query.fault?_of_error answered)
      | ok value =>
          have sound :
              Log.SoundFor context core [context.asked core .guard guard] :=
            soundFor_asked (by decide) answered
          dsimp only
          split
          · next accepted =>
              refine .sends sound suited single ?_
              intro other equal
              rcases Option.some.inj (present.symm.trans equal) with rfl
              exact ⟨[], value, rfl, answered, accepted⟩
          · exact .settles sound

theorem Target.log_nextLoop (context : StepContext) (core : StepCore)
    (target : Target) (loop : LoopDefinition) :
    (target.nextLoop context core loop).log =
      [.noted (.asked (queryOf context.workflow.name core.index .loop
        (loopSource core loop) context.scope))] := by
  rw [nextLoop, Traced.log_bind]
  split
  · rfl
  · split <;> rfl

theorem way_nextLoop {target : Target} {loop : LoopDefinition}
    (suited : suits target) (looping : target.loop = some loop) :
    Way context core suits (target.nextLoop context core loop) := by
  have decision {action : NextAction}
      (value : (target.nextLoop context core loop).value = action) :
      target.nextLoop context core loop =
        ⟨[] ++ [context.asked core .loop (Target.loopSource core loop)],
          action⟩ := by
    rw [← value, List.nil_append]
    exact congrArg (Traced.mk · _) (Target.log_nextLoop context core target loop)
  cases yields : (context.ask core .loop (Target.loopSource core loop)).value.bind
      Value.items with
  | error error =>
      have value : (target.nextLoop context core loop).value =
          target.conditionFailed core .loop error := by
        rw [Target.nextLoop, Traced.value_bind, yields]
        rfl
      have failed : (context.evaluator (context.queryFor core .loop
          (Target.loopSource core loop))).bind Value.items = .error error := yields
      rw [decision value]
      refine .fails soundFor_nil ?_
      rw [Query.fault?_of_loop rfl, failed]
  | ok items =>
      cases items with
      | nil =>
          have value : (target.nextLoop context core loop).value =
              target.record core .skipped "produced no items" none := by
            rw [Target.nextLoop, Traced.value_bind, yields]
            rfl
          rw [decision value]
          exact .idles soundFor_nil yields
      | cons item items =>
          have value :
              (target.nextLoop context core loop).value =
                target.activate context core target.guard
                  (.looping ⟨0, item :: items, loop.name,
                    Scope.loopKeys loop.name context.origin.promotes⟩) := by
            rw [Target.nextLoop, Traced.value_bind, yields]
            rfl
          rw [decision value]
          exact .loops soundFor_nil suited looping yields (List.cons_ne_nil _ _)

theorem way_next {target : Target} (suited : suits target) :
    Way context core suits (target.next context core) := by
  rw [Target.next]
  split
  · next single => exact way_nextSingle suited single
  · next loop looping => exact way_nextLoop suited looping

/-- A branch leads to the target it names, if its request is declared, and else to
a failure. -/
theorem way_take {branch : ResolvedBranch}
    (suited : ∀ (name : String) (request : Request) (policy : Policy),
        context.workflow.request? name = some request →
          suits
            ⟨request, some request.name, policy, request.ownGuard, request.loop⟩) :
    Way context core suits (branch.take context core) := by
  rw [ResolvedBranch.take]
  split
  · exact way_record _ _ _ _ _
  · next name policy acts =>
      split
      · exact way_record _ _ _ _ _
      · next request listed => exact way_next (suited name request policy listed)

/-- Whichever branch the search takes, its conditions before that were answered;
the induction is on the branches. -/
theorem way_search {branches : List ResolvedBranch}
    {roleOf : ResolvedBranch → Role} (accepts : Value → Bool)
    (otherwise : Option ResolvedBranch) (noMatch : String)
    (roles : ∀ branch ∈ branches, roleOf branch ≠ .loop)
    (suited : ∀ (name : String) (request : Request) (policy : Policy),
        context.workflow.request? name = some request →
          suits
            ⟨request, some request.name, policy, request.ownGuard, request.loop⟩) :
    Way context core suits
      (firstAccepted context core roleOf accepts branches >>=
        choose context core otherwise noMatch) := by
  have chosen (branch : Option ResolvedBranch) :
      Way context core suits
        (choose context core otherwise noMatch (.ok branch)) := by
    unfold choose
    dsimp only
    split
    · exact way_take suited
    · exact way_record _ _ _ _ _
  -- The search is taken together with the choice: only after its last condition
  -- does a way end.
  induction branches with
  | nil => exact chosen none
  | cons branch branches hypothesis =>
      have later :=
        hypothesis fun other member => roles other (List.mem_cons_of_mem _ member)
      rw [firstAccepted]
      cases branch.condition with
      | none => exact later
      | some condition =>
          rw [Traced.bind_assoc]
          apply Way.after_ask (roles branch List.mem_cons_self)
          · intro error
            exact ⟨none, none, core.policy, rfl⟩
          · intro value
            dsimp only
            split
            · exact chosen (some branch)
            · exact later

/-- A condition in front of a step adds its own way to skip it or to fail. -/
theorem way_gated {go : Traced NextAction} (way : Way context core suits go) :
    Way context core suits (gated context core go) := by
  rw [gated]
  split
  · exact way
  · apply Way.after_ask (by decide)
    · intro error
      exact ⟨_, _, _, rfl⟩
    · intro value
      dsimp only
      split
      · exact way
      · exact way_record _ _ _ _ _

end Decisions

/-! ## Declared steps -/

/-- No alternative of a declared step has the role of a loop source. -/
theorem StepDefinition.role_of_alternative {definition : StepDefinition}
    {alternative : Role × Branch}
    (member : alternative ∈ definition.alternatives) : alternative.1 ≠ .loop := by
  rw [alternatives] at member
  split at member
  · split at member
    · exact (List.not_mem_nil member).elim
    · rcases List.mem_cons.mp member with rfl | member
      · rintro ⟨⟩
      · rcases List.mem_map.mp member with ⟨branch, other, rfl⟩
        rintro ⟨⟩
  · split at member
    · exact (List.not_mem_nil member).elim
    · rcases List.mem_map.mp member with ⟨branch, other, rfl⟩
      rintro ⟨⟩
  · exact (List.not_mem_nil member).elim

/-- A resolved step goes one of its ways.  It sends the request that it names
under its own condition or else that of the request, and in the loop that it was
resolved with; a branch sends the request under the request's own condition and in
the request's own loop. -/
theorem ResolvedStep.Resolves.way {workflow : WorkflowDefinition} {index : Nat}
    {definition : StepDefinition} {step : ResolvedStep}
    (resolves : step.Resolves workflow index definition) (context : StepContext)
    {suits : Target → Prop}
    (named :
      definition.kind = .request ∨ definition.kind = .forEach →
        ∀ core name loop request, step = .request core name loop →
          context.workflow.request? name = some request →
          suits ⟨request, none, core.policy, core.guard.or request.ownGuard, loop⟩)
    (branched :
      definition.kind = .conditional ∨ definition.kind = .switch →
        ∀ (name : String) (request : Request) (policy : Policy),
          context.workflow.request? name = some request →
            suits ⟨request, some request.name, policy, request.ownGuard,
              request.loop⟩) :
    Way context step.core suits (step.next context) := by
  cases resolves with
  | request kind =>
      unfold ResolvedStep.next
      dsimp only
      split
      · exact way_record _ _ _ _ _
      · next request listed => exact way_next (named kind _ _ _ request rfl listed)
  | @conditional _ arms otherwise kind alternatives last =>
      have roles : ∀ branch ∈ arms, branch.role ≠ .loop :=
        ResolvedBranch.role_of_forall₂ (· ≠ .loop) alternatives
          fun _ => StepDefinition.role_of_alternative
      exact way_gated (way_search _ _ _ roles (branched (.inl kind)))
  | switch kind compared alternatives last =>
      apply way_gated
      apply Way.after_ask (by decide)
      · intro error
        exact ⟨_, _, _, rfl⟩
      · intro value
        exact way_search _ _ _ (fun _ _ => nofun) (branched (.inr kind))

end RequestFlow
