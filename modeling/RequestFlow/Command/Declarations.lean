import RequestFlow.Command.Response
import RequestFlow.Text.Column
import RequestFlow.Workflow.Resolution

/-!
# What a document declares

Two commands show the declarations of a document: one lists them, the other checks
the workflows.  The main statement says when the check succeeds.
-/

namespace RequestFlow.Command

/-- The width of a column of names. -/
def nameWidth : Nat := 24

/-- The width of a column of methods. -/
def methodWidth : Nat := 6

/-- The line of a request in a list. -/
def requestLine (request : Request) : String :=
  let looping :=
    (request.loop.map fun loop =>
      s!"  [for-each {loop.name} in {loop.source}]").getD ""
  s!"  {Text.atLeft nameWidth request.name} {
      Text.atLeft methodWidth request.method} {request.url}" ++
    looping

/-- The line of a workflow in a list. -/
def workflowLine (workflow : WorkflowDefinition) : String :=
  let description := (workflow.description.map fun text => s!"  {text}").getD ""
  s!"  {Text.atLeft nameWidth workflow.name} {workflow.steps.length} steps" ++
    description

/-- The list of what a document declares. -/
def declarationLines (document : Document) : List String :=
  document.title.toList ++ ["Requests:"] ++ document.requests.map requestLine ++
    ["Workflows:"] ++ document.workflows.map workflowLine

/-- The line that tells whether a workflow is valid. -/
def verdictLine (document : Document) (workflow : WorkflowDefinition) : String :=
  match workflow.resolve document with
  | .ok resolved => s!"ok      {resolved.name} ({resolved.totalSteps} steps)"
  | .error error => s!"invalid {workflow.name}: {error.message}"

/-- A workflow of a document is valid. -/
def isValid (document : Document) (workflow : WorkflowDefinition) : Bool :=
  (workflow.resolve document).isOk

/-- The number of workflows that are not valid. -/
def invalidCount (document : Document) : Nat :=
  document.workflows.countP fun workflow => !isValid document workflow

/-- The line that counts the workflows. -/
def countLine (document : Document) : String :=
  let all := document.workflows.length
  let invalid := invalidCount document
  if 0 < invalid then s!"{invalid} of {all} workflows invalid"
  else s!"{all} workflows valid"

/-- The code of the check of a document. -/
def verdictCode (document : Document) : Nat :=
  if 0 < invalidCount document then failureCode else successCode

theorem verdictCode_eq_success_iff (document : Document) :
    verdictCode document = successCode ↔
      ∀ workflow ∈ document.workflows, isValid document workflow := by
  simp [verdictCode, invalidCount, successCode, failureCode]

/-- Answers with what is said about the document of a file. -/
def withDocument (surroundings : Surroundings) (path : String)
    (say : Document → Response) : Response :=
  match Document.load surroundings.disk path with
  | .ok document => say document
  | .error error => .failed surroundings.disk [] (.document error)

/-- Lists what the document of a file declares. -/
def list (surroundings : Surroundings) (path : String) : Response :=
  withDocument surroundings path fun document =>
    .plain surroundings.disk successCode (declarationLines document)

/-- Checks the workflows of the document of a file. -/
def validate (surroundings : Surroundings) (path : String) : Response :=
  withDocument surroundings path fun document =>
    .plain surroundings.disk (verdictCode document)
      (document.workflows.map (verdictLine document) ++ [countLine document])

end RequestFlow.Command
