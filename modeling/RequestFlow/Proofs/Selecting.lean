import RequestFlow.Command.Running
import RequestFlow.Proofs.Names

/-!
# Workflows by name

A workflow goes by its name, whatever the case of the letters and the blanks
around it.  A document is searched for the first workflow of a name, but the
search passes over those that are declared with blanks around their names.  Main
statement: a run by the name of a declared workflow is one of the first workflow
that goes by the name and is declared without such blanks, and there is no run if
none is; so a run of the first workflow of a document is one of that workflow
exactly if its name has no blanks around it.
-/

namespace RequestFlow

open Text

/-! ## Namesakes among workflows -/

/-- A workflow that is declared without blanks around its name. -/
def WorkflowDefinition.isTrimmed (workflow : WorkflowDefinition) : Bool :=
  trimmed workflow.name == workflow.name

/-- A workflow goes by a name up to the case of letters and the blanks around
it. -/
def WorkflowDefinition.goesBy (name : String) (workflow : WorkflowDefinition) :
    Bool :=
  sameLetters (trimmed workflow.name) (trimmed name)

theorem WorkflowDefinition.goesBy_name (workflow : WorkflowDefinition) :
    workflow.goesBy workflow.name = true :=
  sameLetters_refl _

/-- The search asks for both at once. -/
theorem WorkflowDefinition.sameLetters_name (name : String)
    (workflow : WorkflowDefinition) :
    sameLetters workflow.name (trimmed name) =
      (workflow.goesBy name && workflow.isTrimmed) := by
  have key : workflow.goesBy name = true ↔
      requestTableKey workflow.name = requestTableKey name := sameLetters_iff
  rw [Bool.eq_iff_iff, Bool.and_eq_true, sameLetters_trimmed_iff, key, isTrimmed,
    beq_iff_eq]

namespace Document

/-- The workflows that go by a name, in order. -/
def workflowsBy (document : Document) (name : String) : List WorkflowDefinition :=
  document.workflows.filter (WorkflowDefinition.goesBy name)

/-- The search takes the first workflow of a name that is declared without blanks
around it. -/
theorem findWorkflow?_eq (document : Document) (name : String) :
    document.findWorkflow? name =
      (document.workflowsBy name).find? WorkflowDefinition.isTrimmed := by
  have same :
      (fun workflow : WorkflowDefinition =>
          sameLetters workflow.name (trimmed name)) =
        fun workflow =>
          decide (workflow.goesBy name = true ∧ workflow.isTrimmed = true) := by
    funext workflow
    rw [WorkflowDefinition.sameLetters_name, Bool.decide_and, Bool.decide_eq_true,
      Bool.decide_eq_true]
  rw [findWorkflow?, same, workflowsBy, List.find?_filter]

/-- A declared workflow is among those that go by its name. -/
theorem exists_first_workflowBy {document : Document}
    {workflow : WorkflowDefinition} (declared : workflow ∈ document.workflows) :
    ∃ first others, document.workflowsBy workflow.name = first :: others := by
  have member : workflow ∈ document.workflowsBy workflow.name :=
    List.mem_filter.mpr ⟨declared, workflow.goesBy_name⟩
  cases namesakes : document.workflowsBy workflow.name with
  | nil => exact (List.not_mem_nil (namesakes ▸ member)).elim
  | cons first others => exact ⟨first, others, rfl⟩

/-- The first workflow of a document is the first one that goes by its name. -/
theorem workflowsBy_first {document : Document} {first : WorkflowDefinition}
    {others : List WorkflowDefinition}
    (declared : document.workflows = first :: others) :
    document.workflowsBy first.name =
      first :: others.filter (WorkflowDefinition.goesBy first.name) := by
  rw [workflowsBy, declared, List.filter_cons_of_pos first.goesBy_name]

end Document

/-! ## Runs by name -/

namespace RunRequest

section Selection

variable {document : Document} {name : String} {first : WorkflowDefinition}
  {others : List WorkflowDefinition}

theorem ofWorkflow_eq (document : Document) (name : String) :
    ofWorkflow document name =
      match (document.workflowsBy name).find? WorkflowDefinition.isTrimmed with
      | none => .error (.unknownWorkflow (trimmed name))
      | some workflow =>
          .ok ⟨document, workflow, .workflow, document.bindings⟩ := by
  have search : ofWorkflow document name =
      match document.findWorkflow? name with
      | none => .error (.unknownWorkflow (trimmed name))
      | some workflow =>
          .ok ⟨document, workflow, .workflow, document.bindings⟩ := rfl
  rw [search, Document.findWorkflow?_eq]

/-- The first namesake is selected exactly if it is declared without blanks around
its name. -/
theorem ofWorkflow_eq_first_iff
    (namesakes : document.workflowsBy name = first :: others) :
    ofWorkflow document name =
        .ok ⟨document, first, .workflow, document.bindings⟩ ↔
      first.isTrimmed = true := by
  rw [ofWorkflow_eq, namesakes]
  constructor
  · intro selected
    split at selected
    · cases selected
    · next workflow found =>
        cases selected
        exact List.find?_some found
  · intro trim
    rw [List.find?_cons_of_pos trim]

/-- Nothing is selected exactly if all namesakes are declared with blanks around
their names. -/
theorem ofWorkflow_eq_error_iff {error : StartError} :
    ofWorkflow document name = .error error ↔
      error = .unknownWorkflow (trimmed name) ∧
        ∀ workflow ∈ document.workflowsBy name, workflow.isTrimmed = false := by
  rw [ofWorkflow_eq]
  cases found : (document.workflowsBy name).find? WorkflowDefinition.isTrimmed with
  | none =>
      simp only [List.find?_eq_none, Bool.not_eq_true] at found
      rw [Except.error.injEq, and_iff_left found, eq_comm]
  | some workflow =>
      have trim := List.find?_some found
      refine iff_of_false (fun equal => by cases equal) ?_
      rintro ⟨-, padded⟩
      rw [padded workflow (List.mem_of_find?_eq_some found)] at trim
      exact Bool.false_ne_true trim

/-- What runs where no workflow is named is looked up by the name of the first
workflow. -/
theorem find_firstWorkflow {request : RunRequest}
    (workflows : document.workflows = first :: others) :
    Command.Target.firstWorkflow.find document = .ok request ↔
      ofWorkflow document first.name = .ok request := by
  have search : Command.Target.firstWorkflow.find document =
      (ofWorkflow document first.name).mapError .undeclared := by
    rw [Command.Target.find, workflows]
  rw [search]
  cases ofWorkflow document first.name with
  | error error =>
      exact iff_of_false (fun equal => by cases equal)
        (fun equal => by cases equal)
  | ok found =>
      constructor
      · rintro ⟨⟩
        rfl
      · rintro ⟨⟩
        rfl

end Selection

/-- A run by the name of a declared workflow is one of the first workflow that
goes by this name and is declared without blanks around its own; it is one of the
first namesake of all exactly if that is declared so, and there is none exactly if
no namesake is.  What runs where no workflow is named is the first workflow of the
document exactly if its name has no blanks around it. -/
theorem selects_declared {document : Document} {workflow : WorkflowDefinition}
    (declared : workflow ∈ document.workflows) :
    let run (selected : WorkflowDefinition) : RunRequest :=
      ⟨document, selected, .workflow, document.bindings⟩
    (∀ selected,
      ofWorkflow document workflow.name = .ok (run selected) ↔
        (document.workflowsBy workflow.name).find? WorkflowDefinition.isTrimmed =
          some selected) ∧
    (∃ first others, document.workflowsBy workflow.name = first :: others ∧
      (ofWorkflow document workflow.name = .ok (run first) ↔
        first.isTrimmed = true)) ∧
    (ofWorkflow document workflow.name =
        .error (.unknownWorkflow (trimmed workflow.name)) ↔
      ∀ namesake ∈ document.workflowsBy workflow.name,
        namesake.isTrimmed = false) ∧
    ∃ first others, document.workflows = first :: others ∧
      (Command.Target.firstWorkflow.find document = .ok (run first) ↔
        first.isTrimmed = true) := by
  intro run
  refine ⟨?_, ?_, ?_, ?_⟩
  · intro selected
    rw [ofWorkflow_eq]
    cases (document.workflowsBy workflow.name).find?
        WorkflowDefinition.isTrimmed with
    | none =>
        exact iff_of_false (fun equal => by cases equal)
          (fun equal => by cases equal)
    | some found => simp [run]
  · rcases Document.exists_first_workflowBy declared with
      ⟨first, others, namesakes⟩
    exact ⟨first, others, namesakes, ofWorkflow_eq_first_iff namesakes⟩
  · rw [ofWorkflow_eq_error_iff, and_iff_right rfl]
  · cases workflows : document.workflows with
    | nil => exact (List.not_mem_nil (workflows ▸ declared)).elim
    | cons first others =>
        refine ⟨first, others, rfl, ?_⟩
        rw [find_firstWorkflow workflows,
          ofWorkflow_eq_first_iff (Document.workflowsBy_first workflows)]

/-- A document whose workflows have nothing but names. -/
def namedWorkflows (names : List String) : Document :=
  ⟨none, .empty, .inherit, [],
    names.map fun name => ⟨name, none, [], default, .inherit, .empty, [], 0⟩⟩

/-- Of two namesakes the second is selected, for the first has blanks around its
name. -/
theorem selects_declared_twiceDaily :
    let document := namedWorkflows [" Daily ", "daily"]
    ∃ first second, document.workflows = [first, second] ∧
      ofWorkflow document first.name =
        .ok ⟨document, second, .workflow, .empty⟩ := by
  intro document
  refine ⟨_, _, rfl, ?_⟩
  have declared : _ ∈ document.workflows := List.mem_cons_self
  exact ((selects_declared declared).1 _).mpr (by decide)

/-- The only workflow of a document is not found by its own name. -/
theorem unselected_paddedDaily :
    let document := namedWorkflows [" daily "]
    (∃ only, document.workflows = [only] ∧
      ofWorkflow document only.name = .error (.unknownWorkflow "daily")) ∧
      Command.Target.firstWorkflow.find document =
        .error (.undeclared (.unknownWorkflow "daily")) := by
  intro document
  have missing :
      ofWorkflow document " daily " = .error (.unknownWorkflow "daily") := by
    rw [ofWorkflow_eq_error_iff]
    decide
  refine ⟨⟨_, rfl, missing⟩, ?_⟩
  exact congrArg (Except.mapError Command.Failure.undeclared) missing

end RunRequest

end RequestFlow
