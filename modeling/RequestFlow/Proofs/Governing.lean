import RequestFlow.Proofs.Resolution
import RequestFlow.Run.Step

/-!
# Which policy governs a step

What a step comes to is governed by the policy of the step, or, if a branch of the
step leads to a request, by the policy of this branch.  Whether and which branch
does is told by the declaration and the answers to its conditions: the condition
of the step holds, and of its alternatives the first one that is not refused is
accepted, or all are refused and there is a branch without a condition.  Main
statement: what a step does next is under the policy that governs it in this
sense.
-/

namespace RequestFlow

open Condition

/-! ## The branch that leads to a request -/

namespace StepDefinition

variable (definition : StepDefinition)
  (answer : Role → SourceCondition → Except ValueError Value)

/-- The condition of the step is absent or true. -/
def admitted : Bool :=
  match definition.guard? with
  | none => true
  | some guard =>
      match answer .guard guard with
      | .ok value => value.isTruthy
      | .error _ => false

/-- How the values of alternatives are accepted: as true, or as equal to the value
of the subject; not at all if the subject is faulty. -/
def accepts? : Option (Value → Bool) :=
  match definition.subject? with
  | none => some Value.isTruthy
  | some subject =>
      match answer .subject subject with
      | .ok compared => some fun value => value.equals compared
      | .error _ => none

/-- Whether the condition of an alternative is accepted; there is no saying if it
is faulty. -/
def accepted? (accepts : Value → Bool) (alternative : Role × Branch) :
    Option Bool :=
  match definition.conditionOf? alternative.2 with
  | none => some false
  | some condition =>
      match answer alternative.1 condition with
      | .ok value => some (accepts value)
      | .error _ => none

/-- The branch that is taken: the first alternative that is not refused, unless
its condition is faulty, and if all are refused, the branch without a
condition. -/
def taken? (accepts : Value → Bool) : List (Role × Branch) → Option Branch
  | [] => definition.otherwise?
  | alternative :: others =>
      match definition.accepted? answer accepts alternative with
      | none => none
      | some true => some alternative.2
      | some false => taken? accepts others

/-- The branch that the step takes, if it is admitted and none of its conditions
is faulty. -/
def chosen? : Option Branch :=
  if definition.admitted answer then
    (definition.accepts? answer).bind fun accepts =>
      definition.taken? answer accepts definition.alternatives
  else none

end StepDefinition

/-- The policy by way of a branch: that of the branch if it leads to a request,
else that of the step. -/
def Policy.through (own : Policy) : Option Branch → Policy
  | none => own
  | some branch => if branch.run.isSome then branch.policyIn own else own

/-- The policy that governs what a step comes to. -/
def StepDefinition.governing (definition : StepDefinition)
    (answer : Role → SourceCondition → Except ValueError Value)
    (workflow : WorkflowDefinition) : Policy :=
  (definition.policyIn workflow).through (definition.chosen? answer)

/-! ## Decisions under a policy -/

/-- The policy that a failure of the step is under. -/
def NextAction.policy : NextAction → Policy
  | dispatch active => active.policy
  | record _ policy => policy

section Decisions

variable {context : StepContext} {core : StepCore}

/-- The request of a target is under the target's policy, whatever it comes to. -/
theorem policy_next (target : Target) :
    (target.next context core).value.policy = target.policy := by
  rw [Target.next]
  split
  · rw [Target.nextSingle]
    split
    · rfl
    · rw [Traced.value_bind]
      split
      · rfl
      · split <;> rfl
  · rw [Target.nextLoop, Traced.value_bind]
    split
    · rfl
    · split <;> rfl

theorem policy_take {declared : Branch} {branch : ResolvedBranch}
    (resolves : branch.Resolves core.policy declared) :
    (branch.take context core).value.policy =
      core.policy.through (some declared) := by
  rw [ResolvedBranch.Resolves] at resolves
  unfold ResolvedBranch.take Policy.through
  dsimp only
  split
  · next message acts =>
      rw [acts] at resolves
      rw [resolves.1]
      rfl
  · next name own acts =>
      rw [acts] at resolves
      rcases resolves with ⟨runs, policy⟩
      rw [if_pos runs]
      split
      · exact policy
      · rw [policy_next]
        exact policy

theorem policy_choose {declared : Option Branch} {branch : Option ResolvedBranch}
    {otherwise : Option ResolvedBranch} {noMatch : String}
    (resolves :
      Option.Rel (ResolvedBranch.Resolves core.policy) declared
        (branch.or otherwise)) :
    (choose context core otherwise noMatch (.ok branch)).value.policy =
      core.policy.through declared := by
  unfold choose
  dsimp only
  cases chosen : branch.or otherwise with
  | none =>
      rw [chosen] at resolves
      cases resolves with
      | none => rfl
  | some taken =>
      rw [chosen] at resolves
      cases resolves with
      | some relates => exact policy_take relates

/-- The search finds the branch that is taken. -/
theorem policy_search {definition : StepDefinition}
    {answer : Role → SourceCondition → Except ValueError Value}
    {accepts : Value → Bool} {alternatives : List (Role × Branch)}
    {branches : List ResolvedBranch} {roleOf : ResolvedBranch → Role}
    {otherwise : Option ResolvedBranch} {noMatch : String}
    (resolves :
      List.Forall₂ (ResolvedBranch.ResolvesAlternative definition core.policy)
        alternatives branches)
    (roles : ∀ branch ∈ branches, roleOf branch = branch.role)
    (last :
      Option.Rel (ResolvedBranch.Resolves core.policy) definition.otherwise?
        otherwise)
    (asks : ∀ role condition,
        (context.ask core role condition).value = answer role condition) :
    (choose context core otherwise noMatch
        (firstAccepted context core roleOf accepts branches).value).value.policy =
      core.policy.through (definition.taken? answer accepts alternatives) := by
  induction resolves with
  | nil => exact policy_choose last
  | @cons alternative branch alternatives branches first others hypothesis =>
      rcases List.forall_mem_cons.mp roles with ⟨role, roles⟩
      have conditional := first.conditional
      rw [first.condition] at conditional
      rcases Option.isSome_iff_exists.mp conditional with ⟨condition, written⟩
      rw [firstAccepted, StepDefinition.taken?, StepDefinition.accepted?]
      simp only [first.condition, written, role, first.role, Traced.value_bind,
        asks]
      cases answered : answer alternative.1 condition with
      | error error => rfl
      | ok value =>
          cases accepted : accepts value with
          | true =>
              simp only [accepted, if_true]
              exact policy_choose (.some first.action)
          | false =>
              simp only [accepted, Bool.false_eq_true, if_false]
              exact hypothesis roles

/-- A step that is not admitted ends under its own policy. -/
theorem policy_gated {definition : StepDefinition}
    {answer : Role → SourceCondition → Except ValueError Value}
    (guard : core.guard = definition.guard?)
    (asks : ∀ role condition,
        (context.ask core role condition).value = answer role condition)
    (go : Traced NextAction) :
    (gated context core go).value.policy =
      if definition.admitted answer then go.value.policy else core.policy := by
  rw [gated, StepDefinition.admitted, guard]
  cases definition.guard? with
  | none => rfl
  | some condition =>
      simp only [Traced.value_bind, asks]
      split
      · next error failed =>
          simp only [failed]
          rfl
      · next value answered =>
          simp only [answered]
          split <;> rfl

end Decisions

/-- What a resolved step does next is under the policy that governs it. -/
theorem ResolvedStep.Resolves.governed {workflow : WorkflowDefinition}
    {index : Nat} {definition : StepDefinition} {step : ResolvedStep}
    (resolves : step.Resolves workflow index definition) (context : StepContext)
    {answer : Role → SourceCondition → Except ValueError Value}
    (asks : ∀ role condition,
        (context.ask step.core role condition).value = answer role condition) :
    (step.next context).value.policy = definition.governing answer workflow := by
  have guard := resolves.guard_eq
  rw [StepDefinition.governing, StepDefinition.chosen?, StepDefinition.accepts?]
  cases resolves with
  | request kind =>
      have none (accepts : Value → Bool) :
          definition.taken? answer accepts definition.alternatives = none := by
        rw [StepDefinition.alternatives]
        rcases kind with kind | kind <;> simp only [kind, StepDefinition.taken?,
          StepDefinition.otherwise?]
      simp only [none, Option.bind_fun_none, ite_self]
      unfold ResolvedStep.next
      dsimp only
      split
      · rfl
      · exact policy_next _
  | conditional kind alternatives last =>
      simp only [StepDefinition.subject?, kind]
      refine (policy_gated guard asks _).trans ?_
      split
      · exact policy_search alternatives (fun _ _ => rfl) last asks
      · rfl
  | @switch used subject cases otherwise kind compared alternatives last =>
      have roles : ∀ branch ∈ cases, Role.alternative = branch.role :=
        ResolvedBranch.role_of_forall₂ (Role.alternative = ·) alternatives
          fun _ => StepDefinition.role_of_case kind
      refine (policy_gated guard asks _).trans ?_
      rw [compared]
      split
      · have asked :
            (context.ask (Resolution.core workflow index definition used) .subject
                subject).value = answer .subject subject :=
          asks .subject subject
        rw [Traced.value_bind, asked]
        dsimp only
        cases answer .subject subject with
        | error error => rfl
        | ok value => exact policy_search alternatives roles last asks
      · rfl

end RequestFlow
