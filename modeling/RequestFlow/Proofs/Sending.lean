import RequestFlow.Proofs.Names
import RequestFlow.Proofs.Ways

/-!
# What a declared step sends

A step sends a request of the workflow's table, under a condition and in a loop
that the declarations of the step and of the request tell.  Main statement:
whichever way a decision of the step goes, what it sends is as declared.
-/

namespace RequestFlow

open Condition

/-! ## As declared -/

/-- The condition under which a step sends a request: of a step that names the
request its own condition or else that of the request, of a branch that of the
request. -/
def StepDefinition.sendingGuard (definition : StepDefinition) (request : Request) :
    Option SourceCondition :=
  match definition.kind with
  | .request | .forEach => definition.guard?.or request.ownGuard
  | .conditional | .switch => request.ownGuard

/-- The loop in which a step sends a request: of a step that names the request its
own loop or else that of the request, of a branch that of the request. -/
def StepDefinition.sendingLoop (definition : StepDefinition) (request : Request) :
    Option LoopDefinition :=
  match definition.kind with
  | .request | .forEach => definition.loop.or request.loop
  | .conditional | .switch => request.loop

theorem StepDefinition.sending_of_named {definition : StepDefinition}
    (kind : definition.kind = .request ∨ definition.kind = .forEach)
    (request : Request) :
    definition.sendingGuard request = definition.guard?.or request.ownGuard ∧
      definition.sendingLoop request = definition.loop.or request.loop := by
  rw [sendingGuard, sendingLoop]
  rcases kind with kind | kind <;> rw [kind] <;> exact ⟨rfl, rfl⟩

theorem StepDefinition.sending_of_branched {definition : StepDefinition}
    (kind : definition.kind = .conditional ∨ definition.kind = .switch)
    (request : Request) :
    definition.sendingGuard request = request.ownGuard ∧
      definition.sendingLoop request = request.loop := by
  rw [sendingGuard, sendingLoop]
  rcases kind with kind | kind <;> rw [kind] <;> exact ⟨rfl, rfl⟩

/-- A request of the workflow, in the loop and under the condition that a declared
step sends it in and under. -/
structure Target.Suits (context : StepContext) (definition : StepDefinition)
    (target : Target) : Prop where
  known : context.workflow.request? target.request.name = some target.request
  guard : target.guard = definition.sendingGuard target.request
  loop : target.loop = definition.sendingLoop target.request

/-! ## Resolved requests and loops -/

/-- The request that a step names is found once more by its declared name. -/
theorem Resolution.listed_of_used {document : Document}
    {definition : StepDefinition} {request : Request}
    (finds : used document.requestTable definition = .ok (some request)) :
    document.requestTable.get? (requestTableKey request.name) = some request := by
  rw [used] at finds
  split at finds
  · cases finds
  · next authored written =>
      rw [Resolution.request] at finds
      split at finds
      · next found listed =>
          rcases Option.some.inj (Except.ok.inj finds) with rfl
          exact Document.get?_requestTable_name listed
      · cases finds

/-- A step that names its request is sent in its own loop, or else in that of the
request. -/
theorem Resolution.loop_of_step {document : Document}
    {workflow : WorkflowDefinition} {index : Nat} {definition : StepDefinition}
    {core : StepCore} {name : String} {loop : Option LoopDefinition}
    (kind : definition.kind = .request ∨ definition.kind = .forEach)
    (resolves :
      step document.requestTable workflow index definition =
        .ok (.request core name loop))
    {request : Request}
    (listed : document.requestTable.get? (requestTableKey name) = some request) :
    loop = definition.loop.or request.loop := by
  rw [step] at resolves
  cases finds : used document.requestTable definition with
  | error fault =>
      rw [finds] at resolves
      cases resolves
  | ok found =>
      have sends :
          ∃ own,
            requestStep own definition found = .ok (.request core name loop) := by
        rw [finds] at resolves
        rcases kind with kind | kind <;>
          rw [kind] at resolves <;> exact ⟨_, resolves⟩
      rcases sends with ⟨own, sends⟩
      cases found with
      | none => cases sends
      | some used =>
          simp only [requestStep] at sends
          split at sends
          · cases sends
          · rcases ResolvedStep.request.inj (Except.ok.inj sends) with
              ⟨-, rfl, rfl⟩
            rcases Option.some.inj ((listed_of_used finds).symm.trans listed) with
              rfl
            rfl

/-- A declared step goes one of its ways, and what it sends suits its
declaration. -/
theorem way_of_resolve {document : Document} {workflow : WorkflowDefinition}
    {resolved : ResolvedWorkflow}
    (resolves : workflow.resolve document = .ok resolved) {index : Nat}
    {step : ResolvedStep} (current : resolved.steps[index]? = some step)
    (context : StepContext) (same : context.workflow = resolved) :
    ∃ definition, workflow.steps[index]? = some definition ∧
      step.Resolves workflow index definition ∧
      Way context step.core (Target.Suits context definition)
        (step.next context) := by
  rcases (resolves_of_resolve resolves).declared current with
    ⟨definition, declared, stepResolves⟩
  refine ⟨definition, declared, stepResolves, ?_⟩
  have table (name : String) : context.workflow.request? name =
      document.requestTable.get? (requestTableKey name) := by
    rw [same, ResolvedWorkflow.request?_of_resolve resolves]
  have known (name : String) (request : Request)
      (listed : context.workflow.request? name = some request) :
      context.workflow.request? request.name = some request := by
    rw [table] at listed ⊢
    exact Document.get?_requestTable_name listed
  have stored :=
    (steps_of_resolve resolves).2 index definition step declared current
  have guard := stepResolves.guard_eq
  refine stepResolves.way context ?_ ?_
  · rintro kind core name loop request rfl listed
    rcases StepDefinition.sending_of_named kind request with
      ⟨sendingGuard, sendingLoop⟩
    refine ⟨known name request listed, ?_, ?_⟩
    · rw [sendingGuard, ← guard]
      rfl
    · rw [table] at listed
      rw [sendingLoop]
      exact Resolution.loop_of_step kind stored listed
  · intro kind name request policy listed
    rcases StepDefinition.sending_of_branched kind request with
      ⟨sendingGuard, sendingLoop⟩
    exact ⟨known name request listed, sendingGuard.symm, sendingLoop.symm⟩

end RequestFlow
