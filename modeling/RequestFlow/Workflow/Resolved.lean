import RequestFlow.Condition.Evaluation
import RequestFlow.Document.Definition

/-!
# Resolved workflows

A workflow whose references have been looked up and whose steps have been checked.
Every step has its label, its effective policy and its conditions with their
lines; the requests are at hand in a table under their names, blanks at the ends
and the case of letters apart.
-/

namespace RequestFlow

/-- A condition and the line it was declared on. -/
structure SourceCondition where
  text : String
  line : Nat
  deriving DecidableEq

/-- What a branch does once it is taken. -/
inductive BranchAction where
  /-- Sends a request under a policy of its own. -/
  | run (request : String) (policy : Policy)
  /-- Fails with a message, under the policy of the step. -/
  | fail (message : String)
  deriving DecidableEq

/-- A branch of a choice. -/
structure ResolvedBranch where
  role : Condition.Role
  /-- Its condition, or the value of the case. -/
  condition : Option SourceCondition
  action : BranchAction
  deriving DecidableEq

/-- What steps of every kind have. -/
structure StepCore where
  /-- The index of the step, from zero. -/
  index : Nat
  label : String
  /-- The effective policy. -/
  policy : Policy
  /-- The condition under which the step takes place. -/
  guard : Option SourceCondition
  /-- What the response is expected to be. -/
  expect : Dictionary String
  bindings : Dictionary String
  options : Options
  line : Nat
  deriving DecidableEq

/-- A resolved step. -/
inductive ResolvedStep where
  /-- Sends a request, once or in a loop. -/
  | request (core : StepCore) (request : String) (loop : Option LoopDefinition)
  /-- Takes the first branch whose condition is true. -/
  | conditional (core : StepCore) (arms : List ResolvedBranch)
      (otherwise : Option ResolvedBranch)
  /-- Takes the first case whose value is equal to the subject's. -/
  | switch (core : StepCore) (subject : SourceCondition)
      (cases : List ResolvedBranch) (otherwise : Option ResolvedBranch)
  deriving DecidableEq

/-- What steps of every kind have. -/
def ResolvedStep.core : ResolvedStep → StepCore
  | request core _ _ => core
  | conditional core _ _ => core
  | switch core _ _ _ => core

/-- The key of a request in the table. -/
def requestTableKey (name : String) : String :=
  Text.lower (Text.trimmed name)

/-- A resolved workflow. -/
structure ResolvedWorkflow where
  name : String
  description : Option String
  tags : List String
  bindings : Dictionary String
  /-- The options of the document and the workflow. -/
  options : Options
  steps : List ResolvedStep
  requests : Dictionary Request

namespace ResolvedWorkflow

/-- The request of a name. -/
def request? (workflow : ResolvedWorkflow) (name : String) : Option Request :=
  workflow.requests.get? (requestTableKey name)

/-- The number of declared steps. -/
def totalSteps (workflow : ResolvedWorkflow) : Nat :=
  workflow.steps.length

end ResolvedWorkflow

end RequestFlow
