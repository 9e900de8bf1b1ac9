import Mathlib.Data.List.Forall2
import RequestFlow.Workflow.Resolution

/-!
# What resolving keeps

A resolved workflow has one step for each declared step, in order, and each of
them is told here by the declaration alone: its place, its effective policy, its
alternatives with their roles, conditions and effective policies, and the branch
that is taken when no alternative is.
-/

namespace RequestFlow

/-! ## Declared steps -/

/-- The effective policy of a branch: its own, else that of its step. -/
def Branch.policyIn (branch : Branch) (policy : Policy) : Policy :=
  branch.policy.getD policy

namespace StepDefinition

/-- The effective policy of a step: its own, else that of its workflow. -/
def policyIn (definition : StepDefinition) (workflow : WorkflowDefinition) :
    Policy :=
  definition.policy.getD workflow.policy

/-- The branches with conditions, in order and with the roles of these. -/
def alternatives (definition : StepDefinition) : List (Condition.Role × Branch) :=
  match definition.kind with
  | .conditional =>
      match definition.conditional with
      | none => []
      | some block =>
          (.branch, block.first) ::
            block.others.map fun branch => (.otherBranch, branch)
  | .switch =>
      match definition.switch with
      | none => []
      | some block => block.cases.map fun branch => (.alternative, branch)
  | _ => []

/-- The conditions of a switch are asked as those of cases. -/
theorem role_of_case {definition : StepDefinition}
    (kind : definition.kind = .switch) {alternative : Condition.Role × Branch}
    (member : alternative ∈ definition.alternatives) :
    Condition.Role.alternative = alternative.1 := by
  simp only [alternatives, kind] at member
  split at member
  · exact (List.not_mem_nil member).elim
  · rcases List.mem_map.mp member with ⟨branch, case, rfl⟩
    rfl

/-- The branch that is taken when no alternative is. -/
def otherwise? (definition : StepDefinition) : Option Branch :=
  match definition.kind with
  | .conditional => definition.conditional.bind ConditionalBlock.otherwise
  | .switch => definition.switch.bind SwitchBlock.otherwise
  | _ => none

/-- The condition whose value the cases are compared with. -/
def subject? (definition : StepDefinition) : Option SourceCondition :=
  match definition.kind with
  | .switch =>
      definition.switch.map fun block =>
        ⟨block.subject, Resolution.lineOr block.line definition.line⟩
  | _ => none

/-- The condition under which the step takes place. -/
def guard? (definition : StepDefinition) : Option SourceCondition :=
  definition.guard.map fun text =>
    ⟨text, Resolution.lineOr definition.guardLine definition.line⟩

/-- The condition of a branch. -/
def conditionOf? (definition : StepDefinition) (branch : Branch) :
    Option SourceCondition :=
  branch.condition.map fun text =>
    ⟨text, Resolution.lineOr branch.line definition.line⟩

end StepDefinition

/-! ## Branches -/

/-- A branch is resolved: it sends a request under its effective policy, or it
fails. -/
def ResolvedBranch.Resolves (policy : Policy) (branch : Branch)
    (resolved : ResolvedBranch) : Prop :=
  match resolved.action with
  | .run _ own => branch.run.isSome ∧ own = branch.policyIn policy
  | .fail message => branch.run = none ∧ branch.fail = some message

/-- An alternative is resolved, with its role and its condition. -/
structure ResolvedBranch.ResolvesAlternative (definition : StepDefinition)
    (policy : Policy) (alternative : Condition.Role × Branch)
    (resolved : ResolvedBranch) : Prop where
  role : resolved.role = alternative.1
  condition : resolved.condition = definition.conditionOf? alternative.2
  conditional : resolved.condition.isSome
  action : resolved.Resolves policy alternative.2

/-- What holds of the roles of the alternatives holds of the roles that they are
resolved with. -/
theorem ResolvedBranch.role_of_forall₂ {definition : StepDefinition}
    {policy : Policy} (valid : Condition.Role → Prop)
    {alternatives : List (Condition.Role × Branch)}
    {branches : List ResolvedBranch}
    (resolves :
      List.Forall₂ (ResolvesAlternative definition policy) alternatives branches)
    (roles : ∀ alternative ∈ alternatives, valid alternative.1) :
    ∀ branch ∈ branches, valid branch.role := by
  induction resolves with
  | nil => exact fun _ member => (List.not_mem_nil member).elim
  | cons first others hypothesis =>
      intro branch member
      rcases List.mem_cons.mp member with rfl | member
      · rw [first.role]
        exact roles _ List.mem_cons_self
      · exact hypothesis
          (fun other later => roles other (List.mem_cons_of_mem _ later)) branch
          member

namespace Resolution

variable {requests : Dictionary Request} {role : Condition.Role} {policy : Policy}

/-- Resolving a part of a definition gives what the part says; one lemma for each
kind of part. -/
theorem resolves_of_action {branch : Branch} {condition : Option SourceCondition}
    {resolved : BranchAction}
    (acts : action requests branch role policy = .ok resolved) :
    ResolvedBranch.Resolves policy branch ⟨role, condition, resolved⟩ := by
  rw [action] at acts
  rw [ResolvedBranch.Resolves]
  split at acts
  · next run runs fails =>
      split at acts
      · simp only [Except.ok.injEq] at acts
        subst acts
        exact ⟨by rw [runs]; rfl, rfl⟩
      · simp at acts
  · next message runs fails =>
      simp only [Except.ok.injEq] at acts
      subst acts
      exact ⟨runs, fails⟩
  all_goals simp at acts

theorem resolves_of_conditionBranch {definition : StepDefinition} {branch : Branch}
    {resolved : ResolvedBranch}
    (resolves :
      conditionBranch requests definition.line role policy branch = .ok resolved) :
    resolved.ResolvesAlternative definition policy (role, branch) := by
  rw [conditionBranch] at resolves
  split at resolves
  · simp at resolves
  · next text written =>
      split at resolves
      · simp at resolves
      · split at resolves
        · simp at resolves
        · next acts =>
            simp only [Except.ok.injEq] at resolves
            subst resolves
            refine ⟨rfl, ?_, rfl, resolves_of_action acts⟩
            simp only [StepDefinition.conditionOf?, written, Option.map_some]

/-- Branches with conditions are resolved one by one. -/
theorem forall₂_of_conditionBranches {line : Nat} {branches : List Branch}
    {resolved : List ResolvedBranch}
    (resolves :
      conditionBranches requests line role policy branches = .ok resolved) :
    List.Forall₂
      (fun branch first =>
        conditionBranch requests line role policy branch = .ok first) branches
      resolved := by
  induction branches generalizing resolved with
  | nil =>
      simp only [conditionBranches, Except.ok.injEq] at resolves
      subst resolves
      exact .nil
  | cons branch branches hypothesis =>
      rw [conditionBranches] at resolves
      split at resolves
      · simp at resolves
      · next first =>
          split at resolves
          · simp at resolves
          · next others =>
              simp only [Except.ok.injEq] at resolves
              subst resolves
              exact .cons first (hypothesis others)

theorem resolves_of_conditionBranches {definition : StepDefinition}
    {branches : List Branch} {resolved : List ResolvedBranch}
    (resolves :
      conditionBranches requests definition.line role policy branches =
        .ok resolved) :
    List.Forall₂ (ResolvedBranch.ResolvesAlternative definition policy)
      (branches.map fun branch => (role, branch)) resolved := by
  rw [List.forall₂_map_left_iff]
  exact (forall₂_of_conditionBranches resolves).imp fun branch first =>
    resolves_of_conditionBranch

theorem resolves_of_lastBranch {branch : Option Branch}
    {resolved : Option ResolvedBranch}
    (resolves : lastBranch requests role policy branch = .ok resolved) :
    Option.Rel (ResolvedBranch.Resolves policy) branch resolved := by
  cases branch with
  | none =>
      simp only [lastBranch, Except.ok.injEq] at resolves
      subst resolves
      exact .none
  | some branch =>
      simp only [lastBranch, plainBranch] at resolves
      split at resolves
      · simp [Except.map] at resolves
      · next acts =>
          simp only [Except.map, Except.ok.injEq] at resolves
          subst resolves
          exact .some (resolves_of_action acts)

end Resolution

/-! ## Steps -/

/-- A declared step is resolved at its index. -/
inductive ResolvedStep.Resolves (workflow : WorkflowDefinition) (index : Nat)
    (definition : StepDefinition) : ResolvedStep → Prop where
  /-- A step that sends one request has no alternatives. -/
  | request {used : Option Request} {name : String} {loop : Option LoopDefinition}
      (kind : definition.kind = .request ∨ definition.kind = .forEach) :
      Resolves workflow index definition
        (.request (Resolution.core workflow index definition used) name loop)
  | conditional {used : Option Request} {arms : List ResolvedBranch}
      {otherwise : Option ResolvedBranch} (kind : definition.kind = .conditional)
      (alternatives :
        List.Forall₂
          (ResolvedBranch.ResolvesAlternative definition
            (definition.policyIn workflow)) definition.alternatives arms)
      (last :
        Option.Rel (ResolvedBranch.Resolves (definition.policyIn workflow))
          definition.otherwise? otherwise) :
      Resolves workflow index definition
        (.conditional (Resolution.core workflow index definition used) arms
          otherwise)
  | switch {used : Option Request} {subject : SourceCondition}
      {cases : List ResolvedBranch} {otherwise : Option ResolvedBranch}
      (kind : definition.kind = .switch)
      (compared : definition.subject? = some subject)
      (alternatives :
        List.Forall₂
          (ResolvedBranch.ResolvesAlternative definition
            (definition.policyIn workflow)) definition.alternatives cases)
      (last :
        Option.Rel (ResolvedBranch.Resolves (definition.policyIn workflow))
          definition.otherwise? otherwise) :
      Resolves workflow index definition
        (.switch (Resolution.core workflow index definition used) subject cases
          otherwise)

namespace ResolvedStep.Resolves

variable {workflow : WorkflowDefinition} {index : Nat}
  {definition : StepDefinition} {step : ResolvedStep}

/-- What steps of every kind have is the declared one. -/
theorem core_eq (resolves : step.Resolves workflow index definition) :
    ∃ used, step.core = Resolution.core workflow index definition used := by
  cases resolves with
  | request kind => exact ⟨_, rfl⟩
  | conditional kind alternatives last => exact ⟨_, rfl⟩
  | switch kind compared alternatives last => exact ⟨_, rfl⟩

theorem index_eq (resolves : step.Resolves workflow index definition) :
    step.core.index = index := by
  rcases resolves.core_eq with ⟨used, core⟩
  rw [core]
  rfl

theorem guard_eq (resolves : step.Resolves workflow index definition) :
    step.core.guard = definition.guard? := by
  rcases resolves.core_eq with ⟨used, core⟩
  rw [core]
  rfl

theorem bindings_eq (resolves : step.Resolves workflow index definition) :
    step.core.bindings = definition.bindings := by
  rcases resolves.core_eq with ⟨used, core⟩
  rw [core]
  rfl

end ResolvedStep.Resolves

namespace Resolution

variable {requests : Dictionary Request} {workflow : WorkflowDefinition}

theorem resolves_of_conditionalStep {index : Nat} {definition : StepDefinition}
    {used : Option Request} {resolved : ResolvedStep}
    (kind : definition.kind = .conditional)
    (resolves :
      conditionalStep requests (core workflow index definition used) definition =
        .ok resolved) : resolved.Resolves workflow index definition := by
  rw [conditionalStep] at resolves
  split at resolves
  · simp at resolves
  · next block written =>
      split at resolves
      · simp at resolves
      · next first firstResolves =>
          split at resolves
          · simp at resolves
          · next others othersResolve =>
              split at resolves
              · simp at resolves
              · next otherwise otherwiseResolves =>
                  simp only [Except.ok.injEq] at resolves
                  subst resolves
                  refine .conditional kind ?_ ?_
                  · simp only [StepDefinition.alternatives, kind, written]
                    exact .cons (resolves_of_conditionBranch firstResolves)
                      (resolves_of_conditionBranches othersResolve)
                  · simp only [StepDefinition.otherwise?, kind, written,
                      Option.bind_some]
                    exact resolves_of_lastBranch otherwiseResolves

theorem resolves_of_switchStep {index : Nat} {definition : StepDefinition}
    {used : Option Request} {resolved : ResolvedStep}
    (kind : definition.kind = .switch)
    (resolves :
      switchStep requests (core workflow index definition used) definition =
        .ok resolved) : resolved.Resolves workflow index definition := by
  rw [switchStep] at resolves
  split at resolves
  · simp at resolves
  · next block written =>
      split at resolves
      · simp at resolves
      · split at resolves
        · simp at resolves
        · next cases casesResolve =>
            split at resolves
            · simp at resolves
            · next otherwise otherwiseResolves =>
                simp only [Except.ok.injEq] at resolves
                subst resolves
                refine .switch kind ?_ ?_ ?_
                · simp only [StepDefinition.subject?, kind, written,
                    Option.map_some]
                · simp only [StepDefinition.alternatives, kind, written]
                  exact resolves_of_conditionBranches casesResolve
                · simp only [StepDefinition.otherwise?, kind, written,
                    Option.bind_some]
                  exact resolves_of_lastBranch otherwiseResolves

theorem resolves_of_requestStep {index : Nat} {definition : StepDefinition}
    {used : Option Request} {resolved : ResolvedStep}
    (kind : definition.kind = .request ∨ definition.kind = .forEach)
    (resolves :
      requestStep (core workflow index definition used) definition used =
        .ok resolved) : resolved.Resolves workflow index definition := by
  unfold requestStep at resolves
  split at resolves
  · simp at resolves
  · simp only at resolves
    split at resolves
    · simp at resolves
    · simp only [Except.ok.injEq] at resolves
      subst resolves
      exact .request kind

theorem resolves_of_step {index : Nat} {definition : StepDefinition}
    {resolved : ResolvedStep}
    (resolves : step requests workflow index definition = .ok resolved) :
    resolved.Resolves workflow index definition := by
  rw [step] at resolves
  split at resolves
  · simp at resolves
  · simp only at resolves
    split at resolves
    · next kind => exact resolves_of_requestStep (.inl kind) resolves
    · next kind => exact resolves_of_requestStep (.inr kind) resolves
    · next kind => exact resolves_of_conditionalStep kind resolves
    · next kind => exact resolves_of_switchStep kind resolves

/-- Steps are resolved one by one. -/
theorem step_of_steps {first : Nat} {definitions : List StepDefinition}
    {resolved : List ResolvedStep}
    (resolves : steps requests workflow first definitions = .ok resolved) :
    resolved.length = definitions.length ∧
      ∀ (offset : Nat) (definition : StepDefinition) (stored : ResolvedStep),
        definitions[offset]? = some definition → resolved[offset]? = some stored →
          step requests workflow (first + offset) definition = .ok stored := by
  induction definitions generalizing first resolved with
  | nil =>
      simp only [steps, Except.ok.injEq] at resolves
      subst resolves
      refine ⟨rfl, ?_⟩
      intro offset definition stored atDefinition
      simp at atDefinition
  | cons definition definitions hypothesis =>
      rw [steps] at resolves
      split at resolves
      · simp at resolves
      · next head headResolves =>
          split at resolves
          · simp at resolves
          · next others othersResolve =>
              simp only [Except.ok.injEq] at resolves
              subst resolves
              rcases hypothesis othersResolve with ⟨length, each⟩
              refine ⟨by rw [List.length_cons, List.length_cons, length], ?_⟩
              intro offset declared stored atDeclared atStored
              cases offset with
              | zero =>
                  rcases Option.some.inj atDeclared with rfl
                  rcases Option.some.inj atStored with rfl
                  exact headResolves
              | succ offset =>
                  have later := each offset declared stored atDeclared atStored
                  rw [Nat.add_assoc, Nat.add_comm 1 offset] at later
                  exact later

end Resolution

/-! ## Workflows -/

/-- A workflow is resolved step by step. -/
structure ResolvedWorkflow.Resolves (workflow : WorkflowDefinition)
    (resolved : ResolvedWorkflow) : Prop where
  name : resolved.name = workflow.name
  bindings : resolved.bindings = workflow.bindings
  length : resolved.steps.length = workflow.steps.length
  steps : ∀ (index : Nat) (definition : StepDefinition) (step : ResolvedStep),
    workflow.steps[index]? = some definition → resolved.steps[index]? = some step →
      step.Resolves workflow index definition

/-- A resolved workflow has the requests of the document at hand. -/
theorem requests_of_resolve {workflow : WorkflowDefinition} {document : Document}
    {resolved : ResolvedWorkflow}
    (resolves : workflow.resolve document = .ok resolved) :
    resolved.requests = document.requestTable := by
  rw [WorkflowDefinition.resolve] at resolves
  split at resolves
  · cases resolves
  · rw [← Except.ok.inj resolves]

/-- A resolved workflow looks requests up in the table of its document. -/
theorem ResolvedWorkflow.request?_of_resolve {document : Document}
    {workflow : WorkflowDefinition} {resolved : ResolvedWorkflow}
    (resolves : workflow.resolve document = .ok resolved) (name : String) :
    resolved.request? name =
      document.requestTable.get? (requestTableKey name) := by
  rw [request?, requests_of_resolve resolves]

/-- The steps of a resolved workflow are the declared ones, resolved one by one. -/
theorem steps_of_resolve {workflow : WorkflowDefinition} {document : Document}
    {resolved : ResolvedWorkflow}
    (resolves : workflow.resolve document = .ok resolved) :
    resolved.steps.length = workflow.steps.length ∧
      ∀ (index : Nat) (definition : StepDefinition) (stored : ResolvedStep),
        workflow.steps[index]? = some definition →
          resolved.steps[index]? = some stored →
          Resolution.step document.requestTable workflow index definition =
            .ok stored := by
  rw [WorkflowDefinition.resolve] at resolves
  split at resolves
  · cases resolves
  · next steps stepsResolve =>
      rw [← Except.ok.inj resolves]
      rcases Resolution.step_of_steps stepsResolve with ⟨length, each⟩
      refine ⟨length, ?_⟩
      intro index definition stored atDefinition atStored
      have resolves := each index definition stored atDefinition atStored
      rw [Nat.zero_add] at resolves
      exact resolves

/-- The steps of a resolved workflow are those of its definition, one by one. -/
theorem resolves_of_resolve {workflow : WorkflowDefinition} {document : Document}
    {resolved : ResolvedWorkflow}
    (resolves : workflow.resolve document = .ok resolved) :
    resolved.Resolves workflow := by
  rcases steps_of_resolve resolves with ⟨length, each⟩
  have own :
      resolved.name = workflow.name ∧ resolved.bindings = workflow.bindings := by
    rw [WorkflowDefinition.resolve] at resolves
    split at resolves
    · cases resolves
    · rw [← Except.ok.inj resolves]
      exact ⟨rfl, rfl⟩
  refine ⟨own.1, own.2, length, ?_⟩
  intro index definition step atDefinition atStep
  exact Resolution.resolves_of_step
    (each index definition step atDefinition atStep)

/-- Every resolved step has a declaration. -/
theorem ResolvedWorkflow.Resolves.declared {workflow : WorkflowDefinition}
    {resolved : ResolvedWorkflow} (resolves : resolved.Resolves workflow)
    {index : Nat} {step : ResolvedStep}
    (current : resolved.steps[index]? = some step) :
    ∃ definition, workflow.steps[index]? = some definition ∧
      step.Resolves workflow index definition := by
  rcases List.getElem?_eq_some_iff.mp current with ⟨within, _⟩
  rw [resolves.length] at within
  have declared := List.getElem?_eq_getElem within
  exact ⟨_, declared, resolves.steps index _ step declared current⟩

end RequestFlow
