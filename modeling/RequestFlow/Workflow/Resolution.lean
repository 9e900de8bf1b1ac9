import RequestFlow.Workflow.Resolved

/-!
# Resolving workflows

Each step is checked in the order of declaration, and the first fault of the first
faulty step is the answer: the request it uses, then the loop or the block that
its kind asks for, then its branches, the condition of a branch before what it
does.
-/

namespace RequestFlow

/-- What can be wrong with a step. -/
inductive StepFault where
  | unknownRequest (name : String)
  /-- The step sends a request and names none. -/
  | missingRequest (kind : StepKind)
  /-- A loop step has no loop. -/
  | missingLoop
  | missingBlock (kind : StepKind)
  /-- The subject of a switch is blank. -/
  | emptySubject
  | missingCondition (role : Condition.Role)
  /-- A branch both sends a request and fails. -/
  | runAndFail (role : Condition.Role)
  | noAction (role : Condition.Role)
  deriving DecidableEq

/-- The wording of a fault. -/
def StepFault.message : StepFault → String
  | unknownRequest name => s!"unknown request '{name}'"
  | missingRequest kind => s!"{kind.label} step is missing `using`"
  | missingLoop => "for-each step is missing its `for_each` declaration"
  | missingBlock kind => s!"{kind.label} step is missing its branch block"
  | emptySubject => "@switch expression cannot be empty"
  | missingCondition role => s!"{role.text} branch is missing its condition"
  | runAndFail role => s!"{role.text} branch declares both `run` and `fail`"
  | noAction role => s!"{role.text} branch needs either `run` or `fail`"

/-- A faulty step of a workflow. -/
structure ResolutionError where
  workflow : String
  /-- The number of the step, from one. -/
  step : Nat
  fault : StepFault
  deriving DecidableEq

/-- The wording of an error. -/
def ResolutionError.message (error : ResolutionError) : String :=
  s!"workflow '{error.workflow}' step {error.step}: {error.fault.message}"

namespace Resolution

/-- The request of a name, which must be declared. -/
def request (requests : Dictionary Request) (name : String) :
    Except StepFault Request :=
  match requests.get? (requestTableKey name) with
  | some request => .ok request
  | none => .error (.unknownRequest (Text.trimmed name))

/-- The line of a part, or that of the whole where it has none. -/
def lineOr (line whole : Nat) : Nat :=
  if 0 < line then line else whole

/-- What a branch does: exactly one of sending a request and failing. -/
def action (requests : Dictionary Request) (branch : Branch)
    (role : Condition.Role) (policy : Policy) : Except StepFault BranchAction :=
  match branch.run, branch.fail with
  | some run, none =>
      match request requests run with
      | .ok found => .ok (.run found.name (branch.policy.getD policy))
      | .error fault => .error fault
  | none, some message => .ok (.fail message)
  | some _, some _ => .error (.runAndFail role)
  | none, none => .error (.noAction role)

/-- A branch with a condition, which must not be blank. -/
def conditionBranch (requests : Dictionary Request) (stepLine : Nat)
    (role : Condition.Role) (policy : Policy) (branch : Branch) :
    Except StepFault ResolvedBranch :=
  match branch.condition with
  | none => .error (.missingCondition role)
  | some text =>
      if Text.isAllBlank text then .error (.missingCondition role)
      else
        match action requests branch role policy with
        | .error fault => .error fault
        | .ok action =>
            .ok ⟨role, some ⟨text, lineOr branch.line stepLine⟩, action⟩

/-- A branch without a condition; one that is written is passed over. -/
def plainBranch (requests : Dictionary Request) (role : Condition.Role)
    (policy : Policy) (branch : Branch) : Except StepFault ResolvedBranch :=
  match action requests branch role policy with
  | .error fault => .error fault
  | .ok action => .ok ⟨role, none, action⟩

/-- Branches with conditions, in order. -/
def conditionBranches (requests : Dictionary Request) (stepLine : Nat)
    (role : Condition.Role) (policy : Policy) :
    List Branch → Except StepFault (List ResolvedBranch)
  | [] => .ok []
  | branch :: branches =>
      match conditionBranch requests stepLine role policy branch with
      | .error fault => .error fault
      | .ok first =>
          match conditionBranches requests stepLine role policy branches with
          | .error fault => .error fault
          | .ok others => .ok (first :: others)

/-- The branch that is taken when no other is, if there is one. -/
def lastBranch (requests : Dictionary Request) (role : Condition.Role)
    (policy : Policy) : Option Branch → Except StepFault (Option ResolvedBranch)
  | none => .ok none
  | some branch => (plainBranch requests role policy branch).map some

/-- The label of a step: its name, else that of its request, else that of its
kind. -/
def label (step : StepDefinition) (request : Option Request) : String :=
  let name := (step.name.map Text.trimmed).filter fun name => !name.isEmpty
  (name.or (request.map Request.name)).getD step.kind.label

/-- What steps of every kind have. -/
def core (workflow : WorkflowDefinition) (index : Nat) (step : StepDefinition)
    (request : Option Request) : StepCore :=
  { index := index
    label := label step request
    policy := step.policy.getD workflow.policy
    guard := step.guard.map fun text => ⟨text, lineOr step.guardLine step.line⟩
    expect := step.expect
    bindings := step.bindings
    options := step.options
    line := step.line }

/-- The request that a step names, if it names one. -/
def used (requests : Dictionary Request) (step : StepDefinition) :
    Except StepFault (Option Request) :=
  match step.using_ with
  | none => .ok none
  | some name => (request requests name).map some

/-- A step that sends a request; the loop is its own or the request's. -/
def requestStep (core : StepCore) (step : StepDefinition)
    (request : Option Request) : Except StepFault ResolvedStep :=
  match request with
  | none => .error (.missingRequest step.kind)
  | some request =>
      let loop := step.loop.or request.loop
      if step.kind = .forEach && loop.isNone then .error .missingLoop
      else .ok (.request core request.name loop)

/-- A step that chooses by conditions. -/
def conditionalStep (requests : Dictionary Request) (core : StepCore)
    (step : StepDefinition) : Except StepFault ResolvedStep :=
  match step.conditional with
  | none => .error (.missingBlock step.kind)
  | some block =>
      match conditionBranch requests step.line .branch core.policy block.first with
      | .error fault => .error fault
      | .ok first =>
          match conditionBranches requests step.line .otherBranch core.policy
              block.others with
          | .error fault => .error fault
          | .ok others =>
              match lastBranch requests .branch core.policy block.otherwise with
              | .error fault => .error fault
              | .ok otherwise =>
                  .ok (.conditional core (first :: others) otherwise)

/-- A step that chooses by a value. -/
def switchStep (requests : Dictionary Request) (core : StepCore)
    (step : StepDefinition) : Except StepFault ResolvedStep :=
  match step.switch with
  | none => .error (.missingBlock step.kind)
  | some block =>
      if Text.isAllBlank block.subject then .error .emptySubject
      else
        match conditionBranches requests step.line .alternative core.policy
            block.cases with
        | .error fault => .error fault
        | .ok cases =>
            match lastBranch requests .alternative core.policy block.otherwise with
            | .error fault => .error fault
            | .ok otherwise =>
                .ok (.switch core ⟨block.subject, lineOr block.line step.line⟩
                  cases otherwise)

/-- Resolves a step. -/
def step (requests : Dictionary Request) (workflow : WorkflowDefinition)
    (index : Nat) (definition : StepDefinition) : Except StepFault ResolvedStep :=
  match used requests definition with
  | .error fault => .error fault
  | .ok request =>
      let core := core workflow index definition request
      match definition.kind with
      | .request => requestStep core definition request
      | .forEach => requestStep core definition request
      | .conditional => conditionalStep requests core definition
      | .switch => switchStep requests core definition

/-- Resolves steps from an index on. -/
def steps (requests : Dictionary Request) (workflow : WorkflowDefinition) :
    Nat → List StepDefinition → Except ResolutionError (List ResolvedStep)
  | _, [] => .ok []
  | index, definition :: definitions =>
      match step requests workflow index definition with
      | .error fault => .error ⟨workflow.name, index + 1, fault⟩
      | .ok first =>
          match steps requests workflow (index + 1) definitions with
          | .error error => .error error
          | .ok others => .ok (first :: others)

end Resolution

/-- The table of a document's requests; of two under one key the later one
counts. -/
def Document.requestTable (document : Document) : Dictionary Request :=
  .ofList
    (document.requests.map fun request => (requestTableKey request.name, request))

/-- Resolves a workflow against a document. -/
def WorkflowDefinition.resolve (workflow : WorkflowDefinition)
    (document : Document) : Except ResolutionError ResolvedWorkflow :=
  match Resolution.steps document.requestTable workflow 0 workflow.steps with
  | .error error => .error error
  | .ok steps =>
      .ok
        { name := workflow.name
          description := workflow.description
          tags := workflow.tags
          bindings := workflow.bindings
          options := document.options.overlay workflow.options
          steps := steps
          requests := document.requestTable }

end RequestFlow
