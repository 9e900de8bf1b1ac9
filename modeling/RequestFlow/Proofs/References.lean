import RequestFlow.Proofs.Blocks
import RequestFlow.Proofs.Names

/-!
# References

A step refers to requests by names as they are authored.  Each name is looked up
when the workflow is resolved, the declared name of what is found is stored in its
place, and a run looks that up once more. Main statement: a stored name stands for
a request that goes by the name as authored, blanks around either left out, and so
no run ever records that a request is unknown.
-/

namespace RequestFlow

open Condition

/-! ## Names as authored and as stored -/

/-- The names of requests that a declared step refers to, in order. -/
def StepDefinition.references (definition : StepDefinition) : List String :=
  match definition.kind with
  | .request => definition.using_.toList
  | .forEach => definition.using_.toList
  | _ =>
      (definition.alternatives.map Prod.snd ++
        definition.otherwise?.toList).filterMap Branch.run

/-- The name of the request that a branch sends. -/
def ResolvedBranch.reference? (branch : ResolvedBranch) : Option String :=
  match branch.action with
  | .run request _ => some request
  | .fail _ => none

/-- The names of requests that are stored in a resolved step, in order. -/
def ResolvedStep.references : ResolvedStep → List String
  | request _ name _ => [name]
  | conditional _ arms otherwise =>
      (arms ++ otherwise.toList).filterMap ResolvedBranch.reference?
  | switch _ _ cases otherwise =>
      (cases ++ otherwise.toList).filterMap ResolvedBranch.reference?

/-- A stored name stands for a request that goes by a name as authored. -/
def ResolvedWorkflow.Refers (workflow : ResolvedWorkflow)
    (authored stored : String) : Prop :=
  ∃ request, workflow.request? stored = some request ∧
    Text.lower (Text.trimmed request.name) = Text.lower (Text.trimmed authored)

/-- A stored name stands for a request of the document that goes by a name as
authored. -/
def Document.Refers (document : Document) (authored stored : String) : Prop :=
  ∃ request, document.requestTable.get? (requestTableKey stored) = some request ∧
    requestTableKey request.name = requestTableKey authored

/-- A branch stores the name of the request that it sends, if it sends one. -/
def Document.RefersIn (document : Document) (branch : Branch)
    (stored : ResolvedBranch) : Prop :=
  Option.Rel document.Refers branch.run stored.reference?

namespace Resolution

variable {document : Document} {role : Role} {policy : Policy}

/-- A name that is resolved refers to the request that is found. -/
theorem refers_of_request {authored : String} {found : Request}
    (resolves : request document.requestTable authored = .ok found) :
    document.Refers authored found.name := by
  rw [request] at resolves
  split at resolves
  · next listed =>
      rcases Except.ok.inj resolves with rfl
      exact ⟨_, Document.get?_requestTable_name listed,
        Document.key_of_get?_requestTable listed⟩
  · cases resolves

/-- What a branch does refers to the request that the branch names. -/
theorem refers_of_action {branch : Branch} {condition : Option SourceCondition}
    {resolved : BranchAction}
    (acts : action document.requestTable branch role policy = .ok resolved) :
    document.RefersIn branch ⟨role, condition, resolved⟩ := by
  rw [Document.RefersIn]
  rw [action] at acts
  split at acts
  · next run runs fails =>
      split at acts
      · next found resolves =>
          rcases Except.ok.inj acts with rfl
          rw [runs]
          exact .some (refers_of_request resolves)
      · cases acts
  · next message runs fails =>
      rcases Except.ok.inj acts with rfl
      rw [runs]
      exact .none
  · cases acts
  · cases acts

theorem refers_of_conditionBranch {line : Nat} {branch : Branch}
    {resolved : ResolvedBranch}
    (resolves :
      conditionBranch document.requestTable line role policy branch =
        .ok resolved) : document.RefersIn branch resolved := by
  rw [conditionBranch] at resolves
  split at resolves
  · cases resolves
  · split at resolves
    · cases resolves
    · split at resolves
      · cases resolves
      · next acts =>
          rcases Except.ok.inj resolves with rfl
          exact refers_of_action acts

theorem refers_of_lastBranch {branch : Option Branch}
    {resolved : Option ResolvedBranch}
    (resolves :
      lastBranch document.requestTable role policy branch = .ok resolved) :
    List.Forall₂ document.RefersIn branch.toList resolved.toList := by
  cases branch with
  | none =>
      rcases Except.ok.inj resolves with rfl
      exact .nil
  | some branch =>
      rw [lastBranch, plainBranch] at resolves
      split at resolves
      · cases resolves
      · next acts =>
          rcases Except.ok.inj resolves with rfl
          exact .cons (refers_of_action acts) .nil

/-- Branches refer to their requests one by one, in their order. -/
theorem refers_of_conditionBranches {line : Nat} {branches : List Branch}
    {resolved : List ResolvedBranch}
    (resolves :
      conditionBranches document.requestTable line role policy branches =
        .ok resolved) : List.Forall₂ document.RefersIn branches resolved :=
  (forall₂_of_conditionBranches resolves).imp fun _ _ first =>
    refers_of_conditionBranch first

/-- So do the branches of a block and the one that remains. -/
theorem refers_of_branches {branches others : List Branch}
    {arms rest : List ResolvedBranch}
    (first : List.Forall₂ document.RefersIn branches arms)
    (last : List.Forall₂ document.RefersIn others rest) :
    List.Forall₂ document.Refers ((branches ++ others).filterMap Branch.run)
      ((arms ++ rest).filterMap ResolvedBranch.reference?) :=
  List.rel_filterMap (fun _ _ refers => refers) (List.rel_append first last)

/-- A conditional refers to the requests of its arms and of its last branch. -/
theorem refers_of_conditionalStep {core : StepCore} {definition : StepDefinition}
    {resolved : ResolvedStep} (kind : definition.kind = .conditional)
    (resolves :
      conditionalStep document.requestTable core definition = .ok resolved) :
    List.Forall₂ document.Refers definition.references resolved.references := by
  rw [conditionalStep] at resolves
  split at resolves
  · cases resolves
  · next block written =>
      split at resolves
      · cases resolves
      · next first firstResolves =>
          split at resolves
          · cases resolves
          · next others othersResolve =>
              split at resolves
              · cases resolves
              · next otherwise otherwiseResolves =>
                  rcases Except.ok.inj resolves with rfl
                  have refers := refers_of_branches
                    (.cons (refers_of_conditionBranch firstResolves)
                      (refers_of_conditionBranches othersResolve))
                    (refers_of_lastBranch otherwiseResolves)
                  simpa [StepDefinition.references, StepDefinition.alternatives,
                    StepDefinition.otherwise?, ResolvedStep.references, kind,
                    written, Function.comp_def] using refers

/-- A switch refers to the requests of its cases and of its last branch. -/
theorem refers_of_switchStep {core : StepCore} {definition : StepDefinition}
    {resolved : ResolvedStep} (kind : definition.kind = .switch)
    (resolves : switchStep document.requestTable core definition = .ok resolved) :
    List.Forall₂ document.Refers definition.references resolved.references := by
  rw [switchStep] at resolves
  split at resolves
  · cases resolves
  · next block written =>
      split at resolves
      · cases resolves
      · split at resolves
        · cases resolves
        · next cases casesResolve =>
            split at resolves
            · cases resolves
            · next otherwise otherwiseResolves =>
                rcases Except.ok.inj resolves with rfl
                have refers :=
                  refers_of_branches (refers_of_conditionBranches casesResolve)
                    (refers_of_lastBranch otherwiseResolves)
                simpa [StepDefinition.references, StepDefinition.alternatives,
                  StepDefinition.otherwise?, ResolvedStep.references, kind,
                  written, Function.comp_def] using refers

/-- A step that sends a request refers to the one that it uses. -/
theorem refers_of_requestStep {core : StepCore} {definition : StepDefinition}
    {used : Option Request} {resolved : ResolvedStep}
    (finds : Resolution.used document.requestTable definition = .ok used)
    (references : definition.references = definition.using_.toList)
    (resolves : requestStep core definition used = .ok resolved) :
    List.Forall₂ document.Refers definition.references resolved.references := by
  rw [Resolution.used] at finds
  rw [references]
  cases named : definition.using_ with
  | none =>
      simp only [named, Except.ok.injEq] at finds
      subst finds
      cases resolves
  | some name =>
      simp only [named] at finds
      cases found : request document.requestTable name with
      | error fault =>
          rw [found] at finds
          cases finds
      | ok request =>
          rw [found] at finds
          rcases Except.ok.inj finds with rfl
          simp only [requestStep] at resolves
          split at resolves
          · cases resolves
          · rcases Except.ok.inj resolves with rfl
            exact .cons (refers_of_request found) .nil

/-- Each name that a resolved step stores stands for what the declared step refers
to. -/
theorem refers_of_step {workflow : WorkflowDefinition} {index : Nat}
    {definition : StepDefinition} {resolved : ResolvedStep}
    (resolves :
      step document.requestTable workflow index definition = .ok resolved) :
    List.Forall₂ document.Refers definition.references resolved.references := by
  rw [step] at resolves
  split at resolves
  · cases resolves
  · next used finds =>
      simp only at resolves
      split at resolves
      · next kind =>
          exact refers_of_requestStep finds
            (by rw [StepDefinition.references, kind]) resolves
      · next kind =>
          exact refers_of_requestStep finds
            (by rw [StepDefinition.references, kind]) resolves
      · next kind => exact refers_of_conditionalStep kind resolves
      · next kind => exact refers_of_switchStep kind resolves

end Resolution

/-- Step by step, the stored names stand for what the names as authored refer
to. -/
theorem refers_of_resolve {document : Document} {workflow : WorkflowDefinition}
    {resolved : ResolvedWorkflow}
    (resolves : workflow.resolve document = .ok resolved) :
    List.Forall₂ (fun definition step =>
        List.Forall₂ resolved.Refers definition.references step.references)
      workflow.steps resolved.steps := by
  rcases steps_of_resolve resolves with ⟨length, each⟩
  refine List.forall₂_iff_get.mpr ⟨length.symm, ?_⟩
  intro index declared stored
  have step :=
    each index _ _ (List.getElem?_eq_getElem declared)
      (List.getElem?_eq_getElem stored)
  refine (Resolution.refers_of_step step).imp ?_
  rintro authored name ⟨request, listed, key⟩
  refine ⟨request, ?_, key⟩
  rw [ResolvedWorkflow.request?_of_resolve resolves]
  exact listed

/-- Every name that is stored in a step stands for a request. -/
def ResolvedWorkflow.Knows (workflow : ResolvedWorkflow) : Prop :=
  ∀ step ∈ workflow.steps, ∀ name ∈ step.references,
    (workflow.request? name).isSome

/-- A resolved workflow knows every request that its steps refer to. -/
theorem knows_of_resolve {document : Document} {workflow : WorkflowDefinition}
    {resolved : ResolvedWorkflow}
    (resolves : workflow.resolve document = .ok resolved) : resolved.Knows := by
  intro step member name stored
  rcases List.getElem_of_mem member with ⟨index, within, rfl⟩
  have refers := List.forall₂_iff_get.mp (refers_of_resolve resolves)
  rcases List.getElem_of_mem stored with ⟨place, inside, rfl⟩
  have names := List.forall₂_iff_get.mp (refers.2 index (refers.1 ▸ within) within)
  rcases names.2 place (names.1 ▸ inside) inside with ⟨request, known, key⟩
  exact Option.isSome_iff_exists.mpr ⟨request, known⟩

/-! ## Unknown requests -/

/-- A result says that a request is unknown. -/
def StepResult.SaysUnknown (result : StepResult) : Prop :=
  result.status = .failed ∧ result.response = none ∧ result.error = none ∧
    ∃ name,
      result.request = some name ∧ result.message = some (unknownRequest name)

/-- A step that ends at once does not do so because a request is unknown. -/
def NextAction.Finds : NextAction → Prop
  | dispatch _ => True
  | record result _ => ¬ result.SaysUnknown

section Decisions

variable {context : StepContext} {core : StepCore}

/-- A result that is not about a request, or is skipped or raises an error, does
not say that a request is unknown. -/
theorem finds_record {request branch : Option String} {policy : Policy}
    {status : StepStatus} {message : String} {error : Option String}
    (other : request = none ∨ status = .skipped ∨ error.isSome) :
    (core.record request branch policy status message error).Finds := by
  rintro ⟨failed, silent, quiet, name, named, message⟩
  simp only at failed quiet named
  rcases other with unnamed | skipped | told
  · rw [unnamed] at named
    cases named
  · rw [skipped] at failed
    cases failed
  · rw [quiet] at told
    cases told

/-- Where a name stands for no request, this is what the step ends with. -/
theorem not_finds_of_missing {name : String}
    (missing : context.workflow.request? name = none) :
    (∀ loop, ¬ ((ResolvedStep.request core name loop).next context).value.Finds) ∧
      ∀ role condition policy,
        ¬ (ResolvedBranch.take context core
          ⟨role, condition, .run name policy⟩).value.Finds := by
  constructor
  · intro loop finds
    rw [ResolvedStep.next, missing] at finds
    exact finds ⟨rfl, rfl, rfl, name, rfl, rfl⟩
  · intro role condition policy finds
    simp only [ResolvedBranch.take, missing] at finds
    exact finds ⟨rfl, rfl, rfl, name, rfl, rfl⟩

theorem finds_next (target : Target) : (target.next context core).value.Finds := by
  rw [Target.next]
  split
  · rw [Target.nextSingle]
    split
    · trivial
    · rw [Traced.value_bind]
      split
      · exact finds_record (.inr (.inr rfl))
      · split
        · trivial
        · exact finds_record (.inr (.inl rfl))
  · rw [Target.nextLoop, Traced.value_bind]
    split
    · exact finds_record (.inr (.inr rfl))
    · split
      · trivial
      · exact finds_record (.inr (.inl rfl))

/-- A branch whose request is known does not end with an unknown one. -/
theorem finds_take {branch : ResolvedBranch}
    (known : ∀ name ∈ branch.reference?, (context.workflow.request? name).isSome) :
    (branch.take context core).value.Finds := by
  rw [ResolvedBranch.reference?] at known
  rw [ResolvedBranch.take]
  split
  · exact finds_record (.inl rfl)
  · next name policy acts =>
      rw [acts] at known
      split
      · next missing =>
          have found := known name rfl
          rw [missing] at found
          cases found
      · exact finds_next _

/-- The branch that is found is one of those that were searched. -/
theorem mem_of_firstAccepted {roleOf : ResolvedBranch → Role}
    {accepts : Value → Bool} {branches : List ResolvedBranch}
    {branch : ResolvedBranch}
    (found :
      (firstAccepted context core roleOf accepts branches).value =
        .ok (some branch)) : branch ∈ branches := by
  induction branches with
  | nil => cases found
  | cons first others hypothesis =>
      rw [firstAccepted] at found
      split at found
      · exact List.mem_cons_of_mem _ (hypothesis found)
      · rw [Traced.value_bind] at found
        split at found
        · cases found
        · split at found
          · rcases Option.some.inj (Except.ok.inj found) with rfl
            exact List.mem_cons_self
          · exact List.mem_cons_of_mem _ (hypothesis found)

/-- A choice among branches whose requests are known does not end with an unknown
one. -/
theorem finds_choose {roleOf : ResolvedBranch → Role} {accepts : Value → Bool}
    {branches : List ResolvedBranch} {otherwise : Option ResolvedBranch}
    {noMatch : String}
    (known : ∀ branch ∈ branches ++ otherwise.toList, ∀ name ∈ branch.reference?,
        (context.workflow.request? name).isSome) :
    (choose context core otherwise noMatch
      (firstAccepted context core roleOf accepts branches).value).value.Finds := by
  unfold choose
  split
  · exact finds_record (.inl rfl)
  · next found equal =>
      cases found with
      | some branch =>
          exact finds_take
            (known branch (List.mem_append_left _ (mem_of_firstAccepted equal)))
      | none =>
          cases otherwise with
          | none => exact finds_record (.inl rfl)
          | some branch =>
              exact finds_take
                (known branch
                  (List.mem_append_right _ (List.mem_singleton_self branch)))

theorem finds_gated {go : Traced NextAction} (finds : go.value.Finds) :
    (gated context core go).value.Finds := by
  rw [gated]
  split
  · exact finds
  · rw [Traced.value_bind]
    split
    · exact finds_record (.inl rfl)
    · split
      · exact finds
      · exact finds_record (.inl rfl)

end Decisions

/-- No step that refers to known requests alone ends with an unknown one. -/
theorem ResolvedStep.finds_next {step : ResolvedStep} {context : StepContext}
    (known : ∀ name ∈ step.references, (context.workflow.request? name).isSome) :
    (step.next context).value.Finds := by
  have branches {arms : List ResolvedBranch} {otherwise : Option ResolvedBranch}
      (stored :
        ∀ name ∈ (arms ++ otherwise.toList).filterMap ResolvedBranch.reference?,
          (context.workflow.request? name).isSome) :
      ∀ branch ∈ arms ++ otherwise.toList, ∀ name ∈ branch.reference?,
        (context.workflow.request? name).isSome :=
    fun branch member name refers =>
      stored name (List.mem_filterMap.mpr ⟨branch, member, refers⟩)
  cases step with
  | request core name loop =>
      rw [next]
      split
      · next missing =>
          have found := known name (List.mem_singleton_self name)
          rw [missing] at found
          cases found
      · exact RequestFlow.finds_next _
  | conditional core arms otherwise =>
      exact finds_gated (finds_choose (branches known))
  | switch core subject cases otherwise =>
      apply finds_gated
      rw [Traced.value_bind]
      split
      · exact finds_record (.inl rfl)
      · exact finds_choose (branches known)

namespace Run

variable {evaluator : Evaluator}

/-- What a run yields does not say that a request is unknown: neither a decision
nor an answer does. -/
theorem Yields.finds {run next : Run} {stage : Stage} {acts : Log}
    {result : StepResult} {policy : Policy} (knows : run.workflow.Knows)
    (yields : Yields evaluator run stage acts result policy next) :
    ¬ result.SaysUnknown := by
  cases yields with
  | @settled step asked result policy free current decided =>
      have finds : (step.next (run.contextFor evaluator step)).value.Finds :=
        ResolvedStep.finds_next (knows step (List.mem_of_getElem? current))
      rw [decided] at finds
      exact finds
  | passedOver present looping items passed =>
      rintro ⟨failed, silent, quiet, rest⟩
      cases passed with
      | unbound unbound => cases quiet
      | refused bound guarded answered refused => cases failed
      | faulty bound guarded broken => cases quiet
  | @answered dispatch active inFlight outcome result flying present answer =>
      rintro ⟨failed, silent, quiet, rest⟩
      cases outcome with
      | completed snapshot =>
          rcases Option.some.inj answer with rfl
          cases silent
      | skipped reason =>
          rcases Option.some.inj answer with rfl
          cases failed
      | canceled => cases answer

/-- No move records such a result. -/
theorem Move.finds {run next : Run} {stage later : Stage} {acts : Log}
    (knows : run.workflow.Knows) (moved : Move evaluator run stage acts next later)
    (finds : ∀ result ∈ run.results, ¬ result.SaysUnknown) :
    ∀ result ∈ next.results, ¬ result.SaysUnknown := by
  have records {result : StepResult} (found : ¬ result.SaysUnknown) :
      ∀ other ∈ run.results ++ [result], ¬ other.SaysUnknown := by
    intro other member
    rcases List.mem_append.mp member with member | member
    · exact finds other member
    · rcases List.mem_singleton.mp member with rfl
      exact found
  cases moved with
  | goesOn yields lasting =>
      rw [yields.results_eq.1]
      exact records (yields.finds knows)
  | stops yields halting => exact records (yields.finds knows)
  | _ => exact finds

/-- No run ever records that a request is unknown. -/
theorem Reaches.finds {request : RunRequest} {first run : Run} {stage : Stage}
    {log : Log} (begins : Begins request first)
    (reached : Reaches evaluator first .working log run stage) :
    ∀ result ∈ run.results, ¬ result.SaysUnknown := by
  induction reached with
  | refl =>
      rw [begins.results]
      intro result member
      exact (List.not_mem_nil member).elim
  | move reached moved hypothesis =>
      have knows := knows_of_resolve begins.resolved
      rw [← reached.workflow_eq] at knows
      exact moved.finds knows hypothesis

end Run

/-- No result of a run that is under way or reported says that a request is
unknown. -/
structure Engine.FindsAll (reached : List (Call × Answer) × Engine) : Prop where
  underway : ∀ result ∈ reached.2.results, ¬ result.SaysUnknown
  reported : ∀ entry ∈ reached.1, ∀ report, entry.2.report? = some report →
    ∀ result ∈ report.results, ¬ result.SaysUnknown

/-- By induction on the calls: no report of a session, and no run of it, has such
a result. -/
theorem Engine.findsAll_session (evaluator : Evaluator) (calls : List Call) :
    FindsAll (session evaluator calls) := by
  constructor
  · intro result member
    cases running : (session evaluator calls).2.run with
    | none =>
        rw [results, running] at member
        exact (List.not_mem_nil member).elim
    | some run =>
        rw [results, running] at member
        rcases standing_session evaluator calls run running with
          ⟨number, request, first, log, dispatch, begins, reached⟩
        exact reached.finds begins result member
  · intro entry member report given
    rcases reported_session evaluator calls member given with
      ⟨request, first, log, run, ending, reason, now, begins, reached, rfl⟩
    exact reached.finds begins

/-- A name that is stored in a step of a resolved workflow stands for a request
that goes by the name as authored, blanks around it left out, and whatever the
calls of an engine are, no run records that a request is unknown. -/
theorem references_found {document : Document} {workflow : WorkflowDefinition}
    {resolved : ResolvedWorkflow}
    (resolves : workflow.resolve document = .ok resolved) :
    List.Forall₂ (fun definition step =>
          List.Forall₂ resolved.Refers definition.references step.references)
        workflow.steps resolved.steps ∧
      ∀ evaluator calls, Engine.FindsAll (Engine.session evaluator calls) :=
  ⟨refers_of_resolve resolves, Engine.findsAll_session⟩

/-! ### A request declared twice -/

/-- The request for a user is declared twice, the second time with blanks around
its name, and referred to by either name. -/
def paddedUser : RunRequest :=
  let plain := userWorkflow
    [{ StepDefinition.ofKind .request with using_ := some "user" },
      { StepDefinition.ofKind .request with using_ := some " User " }]
  let again :=
    plain.document.requests.map fun request => { request with name := " User " }
  { plain with
    document :=
      { plain.document with requests := plain.document.requests ++ again } }

theorem references_found_paddedUser :
    ∃ resolved, paddedUser.workflow.resolve paddedUser.document = .ok resolved ∧
      paddedUser.workflow.steps.map StepDefinition.references =
        [["user"], [" User "]] ∧
      resolved.steps.map ResolvedStep.references = [[" User "], [" User "]] ∧
      List.Forall₂ (fun definition step =>
          List.Forall₂ resolved.Refers definition.references step.references)
        paddedUser.workflow.steps resolved.steps := by
  have resolves : paddedUser.workflow.resolve paddedUser.document = .ok _ := rfl
  refine ⟨_, resolves, rfl, ?_, (references_found resolves).1⟩
  decide +kernel

/-- A reference with blanks around it is not the trimmed name of the request that
it stands for. -/
theorem references_differ_paddedUser :
    ∃ resolved, paddedUser.workflow.resolve paddedUser.document = .ok resolved ∧
      ¬ List.Forall₂
        (fun definition step =>
          List.Forall₂
            (fun authored stored =>
              ∃ request, resolved.request? stored = some request ∧
                Text.lower (Text.trimmed request.name) = Text.lower authored)
            definition.references step.references)
        paddedUser.workflow.steps resolved.steps := by
  refine ⟨_, rfl, ?_⟩
  rintro (_ | ⟨first, _ | ⟨second, rest⟩⟩)
  rcases second with _ | ⟨⟨request, known, same⟩, others⟩
  rcases Option.some.inj known with rfl
  revert same
  decide +kernel

end RequestFlow
