import RequestFlow.Proofs.Blocks
import RequestFlow.Proofs.Names

/-!
# Well-formed steps

What is asked of a declared step is said twice: as a predicate on the declaration
alone, and as a list of checks in the order in which they are made, each with what
is wrong where it is not passed.  Main statement: a workflow is resolved exactly
if all of its steps are well formed; each step is then resolved as it is declared,
and otherwise the error is that of the first step that is not well formed, with
the first check that this step does not pass.
-/

namespace RequestFlow

/-! ## Well-formed declarations -/

namespace Document

/-- A request of the document goes by the name. -/
def Names (document : Document) (name : String) : Prop :=
  ∃ request ∈ document.requests,
    requestTableKey request.name = requestTableKey name

/-- The request that a name stands for: of those that go by it the last one. -/
def meant? (document : Document) (name : String) : Option Request :=
  (document.namesakes name).getLast?

/-- A request is meant by a name exactly if the name is that of a request. -/
theorem isSome_meant?_iff {document : Document} {name : String} :
    (document.meant? name).isSome = true ↔ document.Names name := by
  rw [meant?, List.getLast?_isSome]
  constructor
  · intro present
    rcases List.exists_mem_of_ne_nil _ present with ⟨request, member⟩
    exact ⟨request, mem_namesakes.mp member⟩
  · rintro ⟨request, member⟩ absent
    have listed := mem_namesakes.mpr member
    rw [absent] at listed
    exact List.not_mem_nil listed

/-- The table holds under a name the request that is meant by it. -/
theorem get?_requestTable_eq_meant? (document : Document) (name : String) :
    document.requestTable.get? (requestTableKey name) = document.meant? name :=
  document.get?_requestTable name

end Document

namespace Branch

/-- The branch has a condition, and it is not blank. -/
def HasCondition (branch : Branch) : Prop :=
  ∃ text, branch.condition = some text ∧ Text.isAllBlank text = false

/-- The branch either sends a request that there is or fails, and not both. -/
def Acts (document : Document) (branch : Branch) : Prop :=
  (∃ name, branch.run = some name ∧ branch.fail = none ∧ document.Names name) ∨
    ∃ message, branch.run = none ∧ branch.fail = some message

end Branch

namespace StepDefinition

/-- The loop in which a step sends the request that it names: its own, or else
that of the request. -/
def loopIn? (document : Document) (definition : StepDefinition) :
    Option LoopDefinition :=
  definition.loop.or ((definition.using_.bind document.meant?).bind Request.loop)

/-- Nothing is wrong with a step. -/
structure WellFormed (document : Document) (definition : StepDefinition) :
    Prop where
  named : ∀ name, definition.using_ = some name → document.Names name
  sends :
    definition.kind = .request ∨ definition.kind = .forEach →
      definition.using_.isSome = true
  loops : definition.kind = .forEach → (definition.loopIn? document).isSome = true
  conditional :
    definition.kind = .conditional → definition.conditional.isSome = true
  switch : definition.kind = .switch →
    ∃ block, definition.switch = some block ∧ Text.isAllBlank block.subject = false
  alternatives : ∀ alternative ∈ definition.alternatives,
    alternative.2.HasCondition ∧ alternative.2.Acts document
  otherwise : ∀ branch, definition.otherwise? = some branch → branch.Acts document

end StepDefinition

/-! ## Checks in order -/

/-- Something that is asked of a step, and what is wrong where it is not so. -/
structure Check where
  passed : Bool
  fault : StepFault

/-- The fault of the first check that is not passed. -/
def firstFault? (checks : List Check) : Option StepFault :=
  (checks.find? fun check => !check.passed).map Check.fault

/-- The first check decides if it fails, and the others do otherwise. -/
theorem firstFault?_cons (check : Check) (checks : List Check) :
    firstFault? (check :: checks) =
      if check.passed then firstFault? checks else some check.fault := by
  cases passed : check.passed <;> simp [firstFault?, passed]

theorem firstFault?_append (first second : List Check) :
    firstFault? (first ++ second) =
      (firstFault? first).or (firstFault? second) := by
  rw [firstFault?, List.find?_append, Option.map_or]
  rfl

/-- There is no fault exactly if every check is passed. -/
theorem firstFault?_eq_none_iff {checks : List Check} :
    firstFault? checks = none ↔ ∀ check ∈ checks, check.passed = true := by
  simp [firstFault?]

/-- A name must stand for a request. -/
def Document.nameCheck (document : Document) (name : String) : Check :=
  ⟨(document.meant? name).isSome, .unknownRequest (Text.trimmed name)⟩

namespace Branch

/-- A branch must not do two things nor nothing, and the request that it sends
must be there. -/
def actionChecks (document : Document) (role : Condition.Role) (branch : Branch) :
    List Check :=
  ⟨!(branch.run.isSome && branch.fail.isSome), .runAndFail role⟩ ::
    ⟨branch.run.isSome || branch.fail.isSome, .noAction role⟩ ::
      branch.run.toList.map document.nameCheck

/-- An alternative must have a condition before anything is asked of what it
does. -/
def checks (document : Document) (alternative : Condition.Role × Branch) :
    List Check :=
  ⟨alternative.2.condition.any fun text => !Text.isAllBlank text,
      .missingCondition alternative.1⟩ ::
    alternative.2.actionChecks document alternative.1

end Branch

namespace StepDefinition

/-- The role of the branch that is taken when no alternative is. -/
def lastRole (definition : StepDefinition) : Condition.Role :=
  match definition.kind with
  | .switch => .alternative
  | _ => .branch

/-- What the kind of a step asks for must be there. -/
def presenceChecks (document : Document) (definition : StepDefinition) :
    List Check :=
  match definition.kind with
  | .request => [⟨definition.using_.isSome, .missingRequest .request⟩]
  | .forEach =>
      [⟨definition.using_.isSome, .missingRequest .forEach⟩,
        ⟨(definition.loopIn? document).isSome, .missingLoop⟩]
  | .conditional => [⟨definition.conditional.isSome, .missingBlock .conditional⟩]
  | .switch =>
      [⟨definition.switch.isSome, .missingBlock .switch⟩,
        ⟨definition.switch.all fun block => !Text.isAllBlank block.subject,
          .emptySubject⟩]

/-- All that is asked of a step, in order: the name of its request, what its kind
asks for, and its branches as they are declared. -/
def checks (document : Document) (definition : StepDefinition) : List Check :=
  definition.using_.toList.map document.nameCheck ++
    (definition.presenceChecks document ++
      (definition.alternatives.flatMap (Branch.checks document) ++
        definition.otherwise?.toList.flatMap
          (Branch.actionChecks document definition.lastRole)))

end StepDefinition

/-! ## Checks and well-formedness -/

/-- The check of an optional name is passed if it is absent or names a request. -/
theorem firstFault?_nameChecks (document : Document) (name? : Option String) :
    firstFault? (name?.toList.map document.nameCheck) = none ↔
      ∀ name, name? = some name → document.Names name := by
  rw [firstFault?_eq_none_iff]
  simp [Document.nameCheck, ← Document.isSome_meant?_iff]

namespace Branch

variable {document : Document}

/-- The checks of what a branch does are passed exactly if it does something that
can be done. -/
theorem firstFault?_actionChecks (role : Condition.Role) (branch : Branch) :
    firstFault? (branch.actionChecks document role) = none ↔
      branch.Acts document := by
  rcases branch with ⟨condition, run, fail, policy, line⟩
  rw [actionChecks, firstFault?_cons, firstFault?_cons, Acts]
  cases run with
  | none => cases fail <;> simp [firstFault?]
  | some name =>
      cases fail with
      | none =>
          have names := firstFault?_nameChecks document (some name)
          simpa using names
      | some message => simp

/-- The checks of a branch are passed exactly if it has its condition and does
something that can be done. -/
theorem firstFault?_checks {alternative : Condition.Role × Branch} :
    firstFault? (checks document alternative) = none ↔
      alternative.2.HasCondition ∧ alternative.2.Acts document := by
  rw [checks, firstFault?_cons, HasCondition,
    ← firstFault?_actionChecks alternative.1]
  cases alternative.2.condition with
  | none => simp
  | some text => cases blank : Text.isAllBlank text <;> simp [blank]

end Branch

theorem firstFault?_flatMap {Source : Type} {checks : Source → List Check}
    {sources : List Source} :
    firstFault? (sources.flatMap checks) = none ↔
      ∀ source ∈ sources, firstFault? (checks source) = none := by
  simp only [firstFault?_eq_none_iff, List.mem_flatMap]
  grind

namespace StepDefinition

variable {document : Document} {definition : StepDefinition}

/-- What a step must have depends on its kind alone: a request, a loop, a block, a
subject that is not blank. -/
theorem firstFault?_presenceChecks :
    firstFault? (definition.presenceChecks document) = none ↔
      (definition.kind = .request ∨ definition.kind = .forEach →
          definition.using_.isSome = true) ∧
        (definition.kind = .forEach →
          (definition.loopIn? document).isSome = true) ∧
        (definition.kind = .conditional → definition.conditional.isSome = true) ∧
        (definition.kind = .switch →
          ∃ block, definition.switch = some block ∧
            Text.isAllBlank block.subject = false) := by
  rw [presenceChecks, firstFault?_eq_none_iff]
  cases kind : definition.kind with
  | request => simp
  | forEach => simp
  | conditional => simp
  | switch => cases definition.switch <;> simp

/-- A step is well formed exactly if it passes all checks. -/
theorem wellFormed_iff :
    definition.WellFormed document ↔
      firstFault? (definition.checks document) = none := by
  rw [checks, firstFault?_append, firstFault?_append, firstFault?_append,
    Option.or_eq_none_iff, Option.or_eq_none_iff, Option.or_eq_none_iff,
    firstFault?_nameChecks, firstFault?_presenceChecks, firstFault?_flatMap,
    firstFault?_flatMap]
  simp only [Branch.firstFault?_checks, Branch.firstFault?_actionChecks,
    Option.mem_toList]
  constructor
  · rintro ⟨named, sends, loops, conditional, switch, alternatives, otherwise⟩
    exact ⟨named, ⟨sends, loops, conditional, switch⟩, alternatives, otherwise⟩
  · rintro ⟨named, ⟨sends, loops, conditional, switch⟩, alternatives, otherwise⟩
    exact ⟨named, sends, loops, conditional, switch, alternatives, otherwise⟩

end StepDefinition

/-! ## Faults of resolving -/

/-- The error of a computation, if it ends with one. -/
def errorOf? {Error Result : Type} : Except Error Result → Option Error
  | .ok _ => none
  | .error error => some error

namespace Resolution

variable {document : Document} {role : Condition.Role}

/-- A request is looked up as it is checked. -/
theorem errorOf?_request (document : Document) (name : String) :
    errorOf? (request document.requestTable name) =
      firstFault? [document.nameCheck name] := by
  rw [request, document.get?_requestTable_eq_meant?]
  cases found : document.meant? name <;>
    simp [errorOf?, firstFault?, Document.nameCheck, found]

/-- What a branch does is resolved with the first fault of its checks. -/
theorem errorOf?_action (document : Document) (role : Condition.Role)
    (policy : Policy) (branch : Branch) :
    errorOf? (action document.requestTable branch role policy) =
      firstFault? (branch.actionChecks document role) := by
  rcases branch with ⟨condition, run, fail, own, line⟩
  rw [Branch.actionChecks, firstFault?_cons, firstFault?_cons]
  cases run with
  | none => cases fail <;> rfl
  | some name =>
      cases fail with
      | some message => rfl
      | none =>
          have fault := errorOf?_request document name
          simp only [action]
          cases found : request document.requestTable name with
          | error error =>
              rw [found] at fault
              exact fault
          | ok sent =>
              rw [found] at fault
              exact fault

/-- A branch with a condition is resolved with the first fault of its checks. -/
theorem errorOf?_conditionBranch (policy : Policy) (line : Nat) (branch : Branch) :
    errorOf? (conditionBranch document.requestTable line role policy branch) =
      firstFault? (Branch.checks document (role, branch)) := by
  have fault := errorOf?_action document role policy branch
  rw [Branch.checks, firstFault?_cons, ← fault, conditionBranch]
  cases branch.condition with
  | none => rfl
  | some text =>
      cases blank : Text.isAllBlank text with
      | true => simp [blank, errorOf?]
      | false =>
          cases action document.requestTable branch role policy <;>
            simp [blank, errorOf?]

/-- So are several branches, in their order. -/
theorem errorOf?_conditionBranches (policy : Policy) (line : Nat)
    (branches : List Branch) :
    errorOf? (conditionBranches document.requestTable line role policy branches) =
      firstFault?
        ((branches.map fun branch => (role, branch)).flatMap
          (Branch.checks document)) := by
  induction branches with
  | nil => rfl
  | cons branch branches hypothesis =>
      rw [List.map_cons, List.flatMap_cons, firstFault?_append, ← hypothesis,
        ← errorOf?_conditionBranch policy line branch, conditionBranches]
      cases conditionBranch document.requestTable line role policy branch with
      | error fault => rfl
      | ok first =>
          cases conditionBranches document.requestTable line role policy
              branches <;> rfl

theorem errorOf?_lastBranch (policy : Policy) (branch? : Option Branch) :
    errorOf? (lastBranch document.requestTable role policy branch?) =
      firstFault?
        (branch?.toList.flatMap (Branch.actionChecks document role)) := by
  cases branch? with
  | none => rfl
  | some branch =>
      have fault := errorOf?_action document role policy branch
      rw [Option.toList_some, List.flatMap_singleton, ← fault, lastBranch,
        plainBranch]
      cases action document.requestTable branch role policy <;> rfl

section Steps

variable {core : StepCore} {definition : StepDefinition}

/-- The request that a step uses is looked up before anything else of the step. -/
theorem errorOf?_used :
    errorOf? (used document.requestTable definition) =
      firstFault? (definition.using_.toList.map document.nameCheck) := by
  rw [used]
  cases definition.using_ with
  | none => rfl
  | some name =>
      have fault := errorOf?_request document name
      rw [Option.toList_some, List.map_singleton, ← fault]
      show errorOf? ((request document.requestTable name).map some) = _
      cases request document.requestTable name <;> rfl

/-- The request that a step names is the one that the name stands for. -/
theorem eq_of_used {found : Option Request}
    (finds : used document.requestTable definition = .ok found) :
    found = definition.using_.bind document.meant? ∧
      found.isSome = definition.using_.isSome := by
  rw [used] at finds
  cases named : definition.using_ with
  | none =>
      rw [named] at finds
      rcases Except.ok.inj finds with rfl
      exact ⟨rfl, rfl⟩
  | some name =>
      simp only [named, request, document.get?_requestTable_eq_meant?] at finds
      rw [Option.bind_some]
      cases meant : document.meant? name with
      | none =>
          rw [meant] at finds
          cases finds
      | some request =>
          rw [meant] at finds
          rcases Except.ok.inj finds with rfl
          exact ⟨rfl, rfl⟩

/-- A step that sends a request fails where something that its kind asks for is
absent. -/
theorem errorOf?_requestStep {found : Option Request}
    (kind : definition.kind = .request ∨ definition.kind = .forEach)
    (finds : used document.requestTable definition = .ok found) :
    errorOf? (requestStep core definition found) =
      firstFault? (definition.presenceChecks document) := by
  rcases eq_of_used finds with ⟨meant, named⟩
  cases found with
  | none =>
      rw [Option.isSome_none] at named
      rcases kind with kind | kind <;>
        simp [requestStep, errorOf?, StepDefinition.presenceChecks, firstFault?,
          kind, ← named]
  | some request =>
      rw [Option.isSome_some] at named
      have loop :
          definition.loopIn? document = definition.loop.or request.loop := by
        rw [StepDefinition.loopIn?, ← meant, Option.bind_some]
      rcases kind with kind | kind
      · simp [requestStep, errorOf?, StepDefinition.presenceChecks, firstFault?,
          kind, ← named]
      · cases looping : definition.loop.or request.loop <;>
          simp [requestStep, errorOf?, StepDefinition.presenceChecks, firstFault?,
            kind, ← named, loop, looping]

/-- A conditional fails with the first fault of its block, its arms and its last
branch. -/
theorem errorOf?_conditionalStep (kind : definition.kind = .conditional) :
    errorOf? (conditionalStep document.requestTable core definition) =
      firstFault? (definition.presenceChecks document ++
        (definition.alternatives.flatMap (Branch.checks document) ++
          definition.otherwise?.toList.flatMap
            (Branch.actionChecks document definition.lastRole))) := by
  simp only [StepDefinition.presenceChecks, StepDefinition.alternatives,
    StepDefinition.otherwise?, StepDefinition.lastRole, kind, conditionalStep]
  cases definition.conditional with
  | none => rfl
  | some block =>
      simp only [Option.bind_some, List.flatMap_cons, firstFault?_append,
        ← errorOf?_conditionBranch core.policy definition.line,
        ← errorOf?_conditionBranches core.policy definition.line,
        ← errorOf?_lastBranch core.policy]
      cases conditionBranch document.requestTable definition.line .branch
          core.policy block.first with
      | error fault => rfl
      | ok first =>
          cases conditionBranches document.requestTable definition.line
              .otherBranch core.policy block.others with
          | error fault => rfl
          | ok others =>
              cases lastBranch document.requestTable .branch core.policy
                  block.otherwise <;> rfl

/-- A switch fails with the first fault of its block, its cases and its last
branch. -/
theorem errorOf?_switchStep (kind : definition.kind = .switch) :
    errorOf? (switchStep document.requestTable core definition) =
      firstFault? (definition.presenceChecks document ++
        (definition.alternatives.flatMap (Branch.checks document) ++
          definition.otherwise?.toList.flatMap
            (Branch.actionChecks document definition.lastRole))) := by
  simp only [StepDefinition.presenceChecks, StepDefinition.alternatives,
    StepDefinition.otherwise?, StepDefinition.lastRole, kind, switchStep]
  cases definition.switch with
  | none => rfl
  | some block =>
      simp only [Option.bind_some, firstFault?_append,
        ← errorOf?_conditionBranches core.policy definition.line,
        ← errorOf?_lastBranch core.policy]
      cases blank : Text.isAllBlank block.subject with
      | true => simp [errorOf?, firstFault?, blank]
      | false =>
          cases conditionBranches document.requestTable definition.line
              .alternative core.policy block.cases with
          | error fault => simp [errorOf?, firstFault?, blank]
          | ok cases =>
              cases lastBranch document.requestTable .alternative core.policy
                  block.otherwise <;> simp [errorOf?, firstFault?, blank]

/-- A step has the fault of the first check that it does not pass. -/
theorem errorOf?_step (document : Document) (workflow : WorkflowDefinition)
    (index : Nat) (definition : StepDefinition) :
    errorOf? (step document.requestTable workflow index definition) =
      firstFault? (definition.checks document) := by
  rw [StepDefinition.checks, firstFault?_append, ← errorOf?_used, step]
  cases finds : used document.requestTable definition with
  | error fault => rfl
  | ok found =>
      have unbranched
          (kind : definition.kind = .request ∨ definition.kind = .forEach) :
          definition.alternatives = [] ∧ definition.otherwise? = none := by
        rw [StepDefinition.alternatives, StepDefinition.otherwise?]
        rcases kind with kind | kind <;> rw [kind] <;> exact ⟨rfl, rfl⟩
      -- The name of the request is not at fault: what follows is what the kind of
      -- the step asks for.
      have silent :
          errorOf? (Except.ok found : Except StepFault (Option Request)) = none :=
        rfl
      rw [silent, Option.none_or]
      simp only
      split
      · next kind =>
          rw [(unbranched (.inl kind)).1, (unbranched (.inl kind)).2,
            errorOf?_requestStep (.inl kind) finds]
          simp
      · next kind =>
          rw [(unbranched (.inr kind)).1, (unbranched (.inr kind)).2,
            errorOf?_requestStep (.inr kind) finds]
          simp
      · next kind => exact errorOf?_conditionalStep kind
      · next kind => exact errorOf?_switchStep kind

end Steps

section Workflows

variable {workflow : WorkflowDefinition} {first : Nat}
  {definitions : List StepDefinition}

/-- All steps are resolved exactly if all are well formed. -/
theorem errorOf?_steps_eq_none_iff (workflow : WorkflowDefinition) (first : Nat) :
    errorOf? (steps document.requestTable workflow first definitions) = none ↔
      ∀ definition ∈ definitions, definition.WellFormed document := by
  induction definitions generalizing first with
  | nil => simp [steps, errorOf?]
  | cons definition definitions hypothesis =>
      rw [List.forall_mem_cons, StepDefinition.wellFormed_iff,
        ← errorOf?_step document workflow first, ← hypothesis (first + 1), steps]
      cases step document.requestTable workflow first definition with
      | error fault => simp [errorOf?]
      | ok resolved =>
          cases steps document.requestTable workflow (first + 1) definitions <;>
            simp [errorOf?]

/-- Behind a step that is resolved the error is that of the steps after it. -/
theorem steps_cons_of_ok {definition : StepDefinition} {resolved : ResolvedStep}
    {error : ResolutionError}
    (resolves :
      step document.requestTable workflow first definition = .ok resolved) :
    steps document.requestTable workflow first (definition :: definitions) =
        .error error ↔
      steps document.requestTable workflow (first + 1) definitions =
        .error error := by
  rw [steps, resolves]
  cases steps document.requestTable workflow (first + 1) definitions <;> simp

/-- The first of some steps that is not well formed stands at this place and has
this fault. -/
def FirstFails (document : Document) (definitions : List StepDefinition)
    (place : Nat) (fault : StepFault) : Prop :=
  ∃ before definition after, definitions = before ++ definition :: after ∧
    before.length = place ∧ (∀ earlier ∈ before, earlier.WellFormed document) ∧
    firstFault? (definition.checks document) = some fault

/-- The first step decides if it fails, and the later ones do otherwise. -/
theorem firstFails_cons {definition : StepDefinition} {place : Nat}
    {fault : StepFault} :
    FirstFails document (definition :: definitions) place fault ↔
      (place = 0 ∧ firstFault? (definition.checks document) = some fault) ∨
        ∃ later, place = later + 1 ∧ definition.WellFormed document ∧
          FirstFails document definitions later fault := by
  constructor
  · rintro ⟨before, faulty, after, split, rfl, sound, found⟩
    cases before with
    | nil =>
        rcases List.cons.inj split with ⟨rfl, _⟩
        exact .inl ⟨rfl, found⟩
    | cons earlier before =>
        rcases List.cons.inj split with ⟨rfl, rest⟩
        rcases List.forall_mem_cons.mp sound with ⟨passes, others⟩
        exact .inr ⟨before.length, rfl, passes, before, faulty, after, rest, rfl,
          others, found⟩
  · rintro (⟨rfl, found⟩ |
      ⟨later, rfl, passes, before, faulty, after, rfl, rfl, sound, found⟩)
    · exact ⟨[], definition, definitions, rfl, rfl, List.forall_mem_nil _, found⟩
    · exact ⟨definition :: before, faulty, after, rfl, rfl,
        List.forall_mem_cons.mpr ⟨passes, sound⟩, found⟩

/-- The error is that of the first step that does not pass its checks. -/
theorem steps_eq_error_iff {error : ResolutionError} :
    steps document.requestTable workflow first definitions = .error error ↔
      ∃ place fault, FirstFails document definitions place fault ∧
        error = ⟨workflow.name, first + place + 1, fault⟩ := by
  induction definitions generalizing first with
  | nil => simp [steps, FirstFails]
  | cons definition definitions hypothesis =>
      have own := errorOf?_step document workflow first definition
      cases resolves : step document.requestTable workflow first definition with
      | error fault =>
          rw [resolves] at own
          rw [steps, resolves]
          constructor
          · intro equal
            exact ⟨0, fault, firstFails_cons.mpr (.inl ⟨rfl, own.symm⟩),
              (Except.error.inj equal).symm⟩
          · rintro ⟨place, other, fails, rfl⟩
            rcases firstFails_cons.mp fails with
              ⟨rfl, found⟩ | ⟨later, rfl, passes, fails⟩
            · rcases Option.some.inj (own.trans found) with rfl
              rfl
            · rw [StepDefinition.wellFormed_iff, ← own] at passes
              cases passes
      | ok resolved =>
          rw [resolves] at own
          have passes : definition.WellFormed document :=
            StepDefinition.wellFormed_iff.mpr own.symm
          -- The steps behind this one are counted from the next number.
          have number (later : Nat) :
              first + 1 + later + 1 = first + (later + 1) + 1 := by
            omega
          refine (steps_cons_of_ok resolves).trans (hypothesis.trans ?_)
          constructor
          · rintro ⟨later, fault, fails, rfl⟩
            refine ⟨later + 1, fault,
              firstFails_cons.mpr (.inr ⟨later, rfl, passes, fails⟩), ?_⟩
            rw [number]
          · rintro ⟨place, fault, fails, rfl⟩
            rcases firstFails_cons.mp fails with
              ⟨rfl, found⟩ | ⟨later, rfl, _, fails⟩
            · cases own.trans found
            · refine ⟨later, fault, fails, ?_⟩
              rw [number]

end Workflows

end Resolution

/-! ## Workflows that are resolved and workflows that are not -/

/-- A workflow is refused with an error: this names the workflow, the number of
the first step that is not well formed, and the first check that this step does
not pass. -/
inductive WorkflowDefinition.Refused (document : Document)
    (workflow : WorkflowDefinition) : ResolutionError → Prop where
  | intro {before after : List StepDefinition} {definition : StepDefinition}
      {fault : StepFault} (steps : workflow.steps = before ++ definition :: after)
      (sound : ∀ earlier ∈ before, earlier.WellFormed document)
      (faulty : ¬ definition.WellFormed document)
      (first : firstFault? (definition.checks document) = some fault) :
      Refused document workflow ⟨workflow.name, before.length + 1, fault⟩

/-- A step is resolved as it is declared: at its index, under its effective
policy, with its branches and their effective policies, and, where it sends the
request that it names, in its own loop or else in that of the request. -/
structure ResolvedStep.AsDeclared (document : Document)
    (workflow : WorkflowDefinition) (index : Nat) (definition : StepDefinition)
    (step : ResolvedStep) : Prop where
  resolves : step.Resolves workflow index definition
  index : step.core.index = index
  policy : step.core.policy = definition.policyIn workflow
  sends : ∀ core name loop, step = .request core name loop → ∃ authored request,
    definition.using_ = some authored ∧ document.meant? authored = some request ∧
      name = request.name ∧ loop = definition.loop.or request.loop

theorem ResolvedStep.Resolves.policy_eq {workflow : WorkflowDefinition}
    {index : Nat} {definition : StepDefinition} {step : ResolvedStep}
    (resolves : step.Resolves workflow index definition) :
    step.core.policy = definition.policyIn workflow := by
  rcases resolves.core_eq with ⟨used, core⟩
  rw [core]
  rfl

/-- A step that is resolved has all that it was declared with. -/
theorem Resolution.asDeclared_of_step {document : Document}
    {workflow : WorkflowDefinition} {index : Nat} {definition : StepDefinition}
    {resolved : ResolvedStep}
    (resolves :
      step document.requestTable workflow index definition = .ok resolved) :
    resolved.AsDeclared document workflow index definition := by
  have declared := resolves_of_step resolves
  refine ⟨declared, declared.index_eq, declared.policy_eq, ?_⟩
  rintro core name loop rfl
  rw [step] at resolves
  cases finds : used document.requestTable definition with
  | error fault =>
      rw [finds] at resolves
      cases resolves
  | ok found =>
      have sends :
          ∃ own,
            requestStep own definition found = .ok (.request core name loop) := by
        rw [finds] at resolves
        cases declared with
        | request kind =>
            rcases kind with kind | kind <;>
              rw [kind] at resolves <;> exact ⟨_, resolves⟩
      rcases sends with ⟨own, sends⟩
      rcases eq_of_used finds with ⟨meant, named⟩
      cases found with
      | none => cases sends
      | some request =>
          rcases Option.bind_eq_some_iff.mp meant.symm with
            ⟨authored, written, standsFor⟩
          simp only [requestStep] at sends
          split at sends
          · cases sends
          · rcases ResolvedStep.request.inj (Except.ok.inj sends) with
              ⟨-, rfl, rfl⟩
            exact ⟨authored, request, written, standsFor, rfl, rfl⟩

/-- A workflow is resolved exactly if all of its steps are well formed.  Its steps
are then resolved one by one as they are declared.  If it is not resolved, the
error is that of the first step that is not well formed, and tells the first check
that this step does not pass. -/
theorem resolve_checked (document : Document) (workflow : WorkflowDefinition) :
    ((∃ resolved, workflow.resolve document = .ok resolved) ↔
        ∀ definition ∈ workflow.steps, definition.WellFormed document) ∧
      (∀ resolved, workflow.resolve document = .ok resolved →
        resolved.steps.length = workflow.steps.length ∧
          ∀ (index : Nat) (definition : StepDefinition) (step : ResolvedStep),
            workflow.steps[index]? = some definition →
              resolved.steps[index]? = some step →
              step.AsDeclared document workflow index definition) ∧
      ∀ error,
        workflow.resolve document = .error error ↔
          workflow.Refused document error := by
  refine ⟨?_, ?_, ?_⟩
  · rw [← Resolution.errorOf?_steps_eq_none_iff workflow 0,
      WorkflowDefinition.resolve]
    cases Resolution.steps document.requestTable workflow 0 workflow.steps <;>
      simp [errorOf?]
  · intro resolved resolves
    rcases steps_of_resolve resolves with ⟨length, each⟩
    refine ⟨length, ?_⟩
    intro index definition step atDefinition atStep
    exact Resolution.asDeclared_of_step
      (each index definition step atDefinition atStep)
  · intro error
    have refused :
        workflow.resolve document = .error error ↔
          Resolution.steps document.requestTable workflow 0 workflow.steps =
            .error error := by
      rw [WorkflowDefinition.resolve]
      cases Resolution.steps document.requestTable workflow 0 workflow.steps <;>
        simp
    rw [refused, Resolution.steps_eq_error_iff]
    constructor
    · rintro
        ⟨place, fault, ⟨before, definition, after, split, rfl, sound, first⟩, rfl⟩
      rw [Nat.zero_add]
      refine .intro split sound ?_ first
      rw [StepDefinition.wellFormed_iff, first]
      exact Option.some_ne_none _
    · rintro ⟨split, sound, faulty, first⟩
      refine ⟨_, _, ⟨_, _, _, split, rfl, sound, first⟩, ?_⟩
      rw [Nat.zero_add]

/-! ### A branch without a condition -/

/-- The second step has a branch without a condition that sends a request that
there is not, behind one with which nothing is wrong; the third one names no
request at all. -/
def unconditionalRoute : RunRequest :=
  let sound : Branch := ⟨some "open", some "User", none, none, 3⟩
  let faulty : Branch := ⟨some " ", some "group", none, none, 4⟩
  userWorkflow [{ StepDefinition.ofKind .request with using_ := some " USER " },
    { StepDefinition.ofKind .conditional with
      conditional := some ⟨sound, [faulty], none⟩ },
    StepDefinition.ofKind .forEach]

theorem resolve_checked_unconditionalRoute :
    unconditionalRoute.workflow.resolve unconditionalRoute.document =
        .error ⟨"users", 2, .missingCondition .otherBranch⟩ ∧
      unconditionalRoute.workflow.Refused unconditionalRoute.document
        ⟨"users", 2, .missingCondition .otherBranch⟩ := by
  have refused : unconditionalRoute.workflow.resolve unconditionalRoute.document =
      .error ⟨"users", 2, .missingCondition .otherBranch⟩ := rfl
  exact ⟨refused, ((resolve_checked _ _).2.2 _).mp refused⟩

end RequestFlow
