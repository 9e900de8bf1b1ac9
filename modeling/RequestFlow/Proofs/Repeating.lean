import RequestFlow.Proofs.Names
import RequestFlow.Proofs.Position

/-!
# A request in its own loop

A request that has a loop can be run by its name alone.  It is looked up in the
document to see that it has a loop, and looked up again, by its declared name, in
the table of the run.  Main statement: the run sends what the table has and walks
through the loop of that, so that it sends the request that was found at first
exactly if the two look-ups agree.
-/

namespace RequestFlow

open Condition

/-! ## What a run in a loop sends -/

/-- The source of a loop was evaluated and has yielded the item. -/
def LoopDefinition.Gives (loop : LoopDefinition) (evaluator : Evaluator)
    (log : Log) (item : Value) : Prop :=
  ∃ query ∈ log.queries, query.role = .loop ∧ query.text = loop.source ∧
    ∃ items, (evaluator query).bind Value.items = .ok items ∧ item ∈ items

/-- What a loop has given it has given also behind earlier acts. -/
theorem LoopDefinition.Gives.prepend {loop : LoopDefinition}
    {evaluator : Evaluator} {log : Log} {item : Value}
    (gives : loop.Gives evaluator log item) (before : Log) :
    loop.Gives evaluator (before ++ log) item := by
  rcases gives with ⟨query, member, rest⟩
  refine ⟨query, ?_, rest⟩
  rw [Log.queries_append]
  exact List.mem_append_right _ member

theorem LoopDefinition.Gives.append {loop : LoopDefinition} {evaluator : Evaluator}
    {log : Log} {item : Value} (gives : loop.Gives evaluator log item)
    (more : Log) : loop.Gives evaluator (log ++ more) item := by
  rcases gives with ⟨query, member, rest⟩
  refine ⟨query, ?_, rest⟩
  rw [Log.queries_append]
  exact List.mem_append_left _ member

/-- A dispatch sends a request with the text of an item of its loop, bound for the
request alone. -/
structure Dispatch.SendsItem (evaluator : Evaluator) (base : Scope)
    (sent : Request) (loop : LoopDefinition) (log : Log) (dispatch : Dispatch) :
    Prop where
  prepared : dispatch.request = sent.prepare dispatch.bindings
  item : ∃ item text, loop.Gives evaluator log item ∧ item.text = .ok text ∧
    dispatch.bindings = (DispatchScope.build base (Scope.ofWorkflow .empty) .empty
      (some ⟨loop.name, Scope.loopKeys loop.name false, text, item⟩)).bindings

/-- Everything in a log is about a request in its loop: no other loop is evaluated
and nothing else is sent. -/
structure Log.InLoop (evaluator : Evaluator) (base : Scope) (sent : Request)
    (loop : LoopDefinition) (log : Log) : Prop where
  source : ∀ query ∈ log.queries, query.role = .loop → query.text = loop.source
  sends :
    ∀ dispatch ∈ log.dispatches, dispatch.SendsItem evaluator base sent loop log

section Logs

variable {evaluator : Evaluator} {base : Scope} {sent : Request}
  {loop : LoopDefinition} {log acts : Log}

/-- A dispatch sends its item whatever comes later. -/
theorem Dispatch.SendsItem.append {dispatch : Dispatch}
    (sends : dispatch.SendsItem evaluator base sent loop log) (more : Log) :
    dispatch.SendsItem evaluator base sent loop (log ++ more) := by
  rcases sends with ⟨prepared, item, text, gives, rest⟩
  exact ⟨prepared, item, text, gives.append more, rest⟩

theorem Log.inLoop_nil : Log.InLoop evaluator base sent loop [] :=
  ⟨fun _ member => (List.not_mem_nil member).elim,
    fun _ member => (List.not_mem_nil member).elim⟩

/-- Acts that ask for no other loop and send items of this one stay in the
loop. -/
theorem Log.InLoop.append (inLoop : log.InLoop evaluator base sent loop)
    (source :
      ∀ query ∈ acts.queries, query.role = .loop → query.text = loop.source)
    (sends : ∀ dispatch ∈ acts.dispatches,
        dispatch.SendsItem evaluator base sent loop (log ++ acts)) :
    Log.InLoop evaluator base sent loop (log ++ acts) := by
  constructor
  · intro query member
    rw [queries_append] at member
    rcases List.mem_append.mp member with member | member
    · exact inLoop.source query member
    · exact source query member
  · intro dispatch member
    rw [dispatches_append] at member
    rcases List.mem_append.mp member with member | member
    · exact (inLoop.sends dispatch member).append acts
    · exact sends dispatch member

/-- Acts that send nothing stay in the loop if they ask for no other one. -/
theorem Log.InLoop.silent (inLoop : log.InLoop evaluator base sent loop)
    (source :
      ∀ query ∈ acts.queries, query.role = .loop → query.text = loop.source)
    (unsent : acts.dispatches = []) :
    Log.InLoop evaluator base sent loop (log ++ acts) := by
  refine inLoop.append source ?_
  rw [unsent]
  intro dispatch member
  exact (List.not_mem_nil member).elim

/-- A step that is being explored has not asked for a loop yet. -/
theorem Log.Explores.source {index : Nat} (explores : acts.Explores index) :
    ∀ query ∈ acts.queries, query.role = .loop → query.text = loop.source := by
  intro query member role
  exact (explores.loopless query member role).elim

end Logs

/-! ## Walking through a loop -/

/-- The active step walks through items of the loop. -/
structure ActiveStep.Walks (evaluator : Evaluator) (sent : Request)
    (loop : LoopDefinition) (log : Log) (active : ActiveStep) : Prop where
  request : active.request = sent
  bindings : active.bindings = .empty
  walk :
    ∃ walk : Loop, active.progress = .looping walk ∧ walk.name = loop.name ∧
      walk.keys = Scope.loopKeys loop.name false ∧
      ∀ item ∈ walk.ahead, loop.Gives evaluator log item

/-- A step walks through its items whatever comes later. -/
theorem ActiveStep.Walks.append {evaluator : Evaluator} {sent : Request}
    {loop : LoopDefinition} {log : Log} {active : ActiveStep}
    (walks : ActiveStep.Walks evaluator sent loop log active) (more : Log) :
    ActiveStep.Walks evaluator sent loop (log ++ more) active := by
  rcases walks with ⟨request, bindings, walk, looping, name, keys, gives⟩
  exact ⟨request, bindings, walk, looping, name, keys,
    fun item member => (gives item member).append more⟩

theorem ActiveStep.Walks.prepend {evaluator : Evaluator} {sent : Request}
    {loop : LoopDefinition} {log : Log} {active : ActiveStep}
    (walks : ActiveStep.Walks evaluator sent loop log active) (before : Log) :
    ActiveStep.Walks evaluator sent loop (before ++ log) active := by
  rcases walks with ⟨request, bindings, walk, looping, name, keys, gives⟩
  exact ⟨request, bindings, walk, looping, name, keys,
    fun item member => (gives item member).prepend before⟩

/-- A step that goes on to its next item walks through the same items. -/
theorem ActiveStep.Walks.advance {evaluator : Evaluator} {sent : Request}
    {loop : LoopDefinition} {log : Log} {active : ActiveStep}
    (walks : ActiveStep.Walks evaluator sent loop log active) :
    ActiveStep.Walks evaluator sent loop log active.advance := by
  rcases walks with ⟨request, bindings, walk, looping, name, keys, gives⟩
  refine ⟨request, bindings, walk.advance, congrArg Progress.advance looping, ?_⟩
  rw [Loop.advance]
  split
  · exact ⟨name, keys, gives⟩
  · next equal =>
      refine ⟨name, keys, ?_⟩
      intro item member
      refine gives item ?_
      rw [equal]
      exact List.mem_cons_of_mem _ member

/-- A step that becomes active walks through items of the loop. -/
def NextAction.Walks (evaluator : Evaluator) (sent : Request)
    (loop : LoopDefinition) (log : Log) : NextAction → Prop
  | record _ _ => True
  | dispatch active => active.Walks evaluator sent loop log

/-- A request that is sent in a loop walks through the items that the evaluator
has given. -/
theorem Target.walks_nextLoop {context : StepContext} {core : StepCore}
    {target : Target} {loop : LoopDefinition} (unbound : core.bindings = .empty)
    (promotes : context.origin.promotes = false) :
    (target.nextLoop context core loop).value.Walks context.evaluator
      target.request loop (target.nextLoop context core loop).log := by
  rw [log_nextLoop, nextLoop, Traced.value_bind, promotes]
  cases yields : (context.ask core .loop (loopSource core loop)).value.bind
      Value.items with
  | error error => trivial
  | ok items =>
      cases items with
      | nil => trivial
      | cons first others =>
          refine ⟨rfl, unbound, _, rfl, rfl, rfl, ?_⟩
          intro item member
          exact ⟨_, List.mem_singleton_self _, rfl, rfl, _, yields, member⟩

/-- Every step of the workflow sends the request in the loop. -/
structure ResolvedWorkflow.Repeats (sent : Request) (loop : LoopDefinition)
    (workflow : ResolvedWorkflow) : Prop where
  listed : workflow.request? sent.name = some sent
  only :
    ∀ (index : Nat) (step : ResolvedStep), workflow.steps[index]? = some step →
      ∃ core, step = .request core sent.name (some loop) ∧ core.bindings = .empty

namespace Run

/-! ## Along a run -/

/-- A run of a request in its loop. -/
structure Repeating (evaluator : Evaluator) (base : Scope) (sent : Request)
    (loop : LoopDefinition) (run : Run) (log : Log) : Prop where
  ambient : run.ambient = base
  scope : run.scope = Scope.ofWorkflow .empty
  origin : run.origin = .adHoc
  inLoop : log.InLoop evaluator base sent loop
  walks : ∀ active, run.active = some active →
    active.Walks evaluator sent loop log

section Moves

variable {evaluator : Evaluator} {base : Scope} {sent : Request}
  {loop : LoopDefinition} {run next : Run} {stage later : Stage} {log acts : Log}

/-- A run that has left its step is still repeating. -/
theorem Repeating.free (repeating : Repeating evaluator base sent loop run log)
    (sameAmbient : next.ambient = run.ambient) (sameScope : next.scope = run.scope)
    (sameOrigin : next.origin = run.origin) (free : next.active = none)
    (inLoop : Log.InLoop evaluator base sent loop (log ++ acts)) :
    Repeating evaluator base sent loop next (log ++ acts) := by
  refine ⟨sameAmbient.trans repeating.ambient, sameScope.trans repeating.scope,
    sameOrigin.trans repeating.origin, inLoop, ?_⟩
  intro active present
  rw [free] at present
  cases present

/-- A run is still repeating when its step goes on to the next item. -/
theorem Repeating.further {active walking : ActiveStep}
    (repeating : Repeating evaluator base sent loop run log)
    (present : run.active = some active) (sameAmbient : next.ambient = run.ambient)
    (sameScope : next.scope = run.scope) (sameOrigin : next.origin = run.origin)
    (following : next.active = some walking)
    (walks : walking = active ∨ walking = active.advance)
    (inLoop : Log.InLoop evaluator base sent loop (log ++ acts)) :
    Repeating evaluator base sent loop next (log ++ acts) := by
  refine ⟨sameAmbient.trans repeating.ambient, sameScope.trans repeating.scope,
    sameOrigin.trans repeating.origin, inLoop, ?_⟩
  intro other equal
  rcases Option.some.inj (following.symm.trans equal) with rfl
  have before := (repeating.walks active present).append acts
  rcases walks with rfl | rfl
  · exact before
  · exact before.advance

/-- The only step of a repeating run asks for the loop of the request and walks
through its items. -/
theorem Repeating.decides (repeating : Repeating evaluator base sent loop run log)
    (repeats : run.workflow.Repeats sent loop) {step : ResolvedStep}
    (current : run.workflow.steps[run.stepIndex]? = some step) :
    (∀ query ∈ (step.next (run.contextFor evaluator step)).log.queries,
        query.role = .loop → query.text = loop.source) ∧
      (step.next (run.contextFor evaluator step)).log.dispatches = [] ∧
        (step.next (run.contextFor evaluator step)).value.Walks evaluator sent loop
          (step.next (run.contextFor evaluator step)).log := by
  rcases repeats.only _ _ current with ⟨core, rfl, unbound⟩
  have known :
      (run.contextFor evaluator
          (.request core sent.name (some loop))).workflow.request? sent.name =
        some sent :=
    repeats.listed
  have promotes : RunOrigin.promotes run.origin = false := by
    rw [repeating.origin]
    rfl
  simp only [ResolvedStep.next, known, Target.next]
  refine ⟨?_, ?_, Target.walks_nextLoop unbound promotes⟩
  · rw [Target.log_nextLoop]
    intro query member role
    rcases List.mem_singleton.mp member with rfl
    rfl
  · rw [Target.log_nextLoop]
    rfl

theorem Yields.inLoop {result : StepResult} {policy : Policy}
    (repeats : run.workflow.Repeats sent loop)
    (yields : Yields evaluator run stage acts result policy next)
    (repeating : Repeating evaluator base sent loop run log) :
    Log.InLoop evaluator base sent loop (log ++ (acts ++ [.recorded result])) := by
  have silent {asked : Log}
      (source :
        ∀ query ∈ asked.queries, query.role = .loop → query.text = loop.source)
      (unsent : asked.dispatches = []) :
      Log.InLoop evaluator base sent loop
        (log ++ (asked ++ (raiseErrorOf result).log ++ [.recorded result])) := by
    apply repeating.inLoop.silent
    · rw [Log.queries_append, queries_asked_raised, Log.queries_recorded,
        List.append_nil]
      exact source
    · simp [unsent]
  cases yields with
  | settled free current decided =>
      rcases repeating.decides repeats current with ⟨source, unsent, walks⟩
      rw [decided] at source unsent
      exact silent source unsent
  | passedOver present looping items passed =>
      exact silent passed.explores.source passed.explores.asks.dispatches
  | answered flying present answer =>
      exact repeating.inLoop.silent
        (fun _ member => (List.not_mem_nil member).elim) rfl

/-- What a repeating run sends is the item that its step has come to. -/
theorem Ready.sendsItem {active sender : ActiveStep} {scope : DispatchScope}
    {iteration : Option Iteration}
    (repeating : Repeating evaluator base sent loop run log)
    (present : run.active = some active)
    (ready : Ready evaluator run active acts sender scope iteration) :
    sender = active ∧
      (run.send sender scope iteration).2.SendsItem evaluator base sent loop
        log := by
  rcases repeating.walks active present with
    ⟨request, bindings, walk, looping, name, keys, gives⟩
  have sends {walked : Loop} {item : Value} {ahead : List Value} {text : String}
      (walking : active.progress = .looping walked)
      (items : walked.ahead = item :: ahead) (bound : item.text = .ok text) :
      (run.send active (run.itemScope active walked item text)
        (some walked.iteration)).2.SendsItem evaluator base sent loop log := by
    rcases Progress.looping.inj (looping.symm.trans walking) with rfl
    have member : item ∈ walk.ahead := by
      rw [items]
      exact List.mem_cons_self
    refine ⟨?_, item, text, gives item member, bound, ?_⟩
    · show active.request.prepare _ = _
      rw [request]
      rfl
    · show (DispatchScope.build run.ambient run.scope active.bindings
        (some ⟨walk.name, walk.keys, text, item⟩)).bindings = _
      rw [repeating.ambient, repeating.scope, bindings, name, keys]
  cases ready with
  | once fresh =>
      rw [looping] at fresh
      cases fresh
  | item walking items bound unguarded => exact ⟨rfl, sends walking items bound⟩
  | guardedItem walking items bound guarded answered accepted =>
      exact ⟨rfl, sends walking items bound⟩

/-- Every move keeps a run repeating: one case for each kind of move. -/
theorem Move.repeating (repeats : run.workflow.Repeats sent loop)
    (moved : Move evaluator run stage acts next later)
    (repeating : Repeating evaluator base sent loop run log) :
    Repeating evaluator base sent loop next (log ++ acts) := by
  cases moved with
  | goesOn yields lasting =>
      have inLoop := yields.inLoop repeats repeating
      cases yields with
      | settled free current decided =>
          exact repeating.free rfl rfl rfl free inLoop
      | passedOver present looping items passed =>
          exact repeating.further present rfl rfl rfl rfl (.inr rfl) inLoop
      | answered flying present answer =>
          exact repeating.further present rfl rfl rfl rfl (.inr rfl) inLoop
  | stops yields halting =>
      exact repeating.free rfl rfl rfl rfl (yields.inLoop repeats repeating)
  | enters free current decided =>
      rcases repeating.decides repeats current with ⟨source, unsent, walks⟩
      rw [decided] at source unsent walks
      refine ⟨repeating.ambient, repeating.scope, repeating.origin,
        repeating.inLoop.silent source unsent, ?_⟩
      rintro active ⟨⟩
      exact walks.prepend log
  | leaves present finished =>
      exact repeating.free rfl rfl rfl rfl
        (repeating.inLoop.silent (fun _ member => (List.not_mem_nil member).elim)
          rfl)
  | sends present ready =>
      rcases ready.sendsItem repeating present with ⟨rfl, sends⟩
      have walks := repeating.walks _ present
      rcases ready.explores.asks.sent _ with ⟨queries, unrecorded, dispatches⟩
      refine ⟨repeating.ambient, ?_, repeating.origin, ?_, ?_⟩
      · show Scope.persist run.scope _ _ = _
        rw [walks.bindings, repeating.scope]
        rfl
      · refine repeating.inLoop.append ?_ ?_
        · rw [queries]
          exact ready.explores.source
        · rw [dispatches]
          intro dispatch member
          rcases List.mem_singleton.mp member with rfl
          exact sends.append _
      · rintro active ⟨⟩
        exact walks.append _
  | completes free done =>
      exact repeating.free rfl rfl rfl free
        (repeating.inLoop.silent (fun _ member => (List.not_mem_nil member).elim)
          rfl)
  | cancels =>
      rw [List.append_nil]
      exact repeating

/-- Wherever moves lead to, the run is about the request in its loop. -/
theorem Reaches.repeating {request : RunRequest} {first : Run}
    (begins : Begins request first) (origin : first.origin = .adHoc)
    (bindings : first.workflow.bindings = .empty)
    (repeats : first.workflow.Repeats sent loop)
    (reached : Reaches evaluator first .working log run stage) :
    Repeating evaluator request.ambient sent loop run log := by
  induction reached with
  | refl =>
      refine ⟨begins.ambient, ?_, origin, Log.inLoop_nil, ?_⟩
      · rw [begins.scope, bindings]
      · intro active present
        rw [begins.active] at present
        cases present
  | move reached moved hypothesis =>
      rw [← reached.workflow_eq] at repeats
      exact moved.repeating repeats hypothesis

end Moves

end Run

/-! ## Starting the run -/

/-- The workflow of a request in its own loop has one step, which sends what the
table has, in the loop of that; without a loop it is faulty. -/
theorem RunRequest.resolve_loopWorkflow {document : Document}
    {found sent : Request}
    (listed :
      document.requestTable.get? (requestTableKey found.name) = some sent) :
    match sent.loop with
    | none =>
        (loopWorkflow found).resolve document =
          .error ⟨found.name, 1, .missingLoop⟩
    | some loop =>
        ∃ workflow, (loopWorkflow found).resolve document = .ok workflow ∧
          workflow.Repeats sent loop ∧ workflow.bindings = .empty := by
  have used : Resolution.request document.requestTable found.name = .ok sent := by
    rw [Resolution.request, listed]
  cases looped : sent.loop with
  | none =>
      simp only [WorkflowDefinition.resolve, loopWorkflow, StepDefinition.ofKind,
        Resolution.steps, Resolution.step, Resolution.used, used, Except.map,
        Resolution.requestStep, looped]
      rfl
  | some loop =>
      have resolves :
          ∃ workflow, (loopWorkflow found).resolve document = .ok workflow ∧
            workflow.requests = document.requestTable ∧
            workflow.bindings = .empty ∧
            ∃ core, workflow.steps = [.request core sent.name (some loop)] ∧
              core.bindings = .empty := by
        simp only [WorkflowDefinition.resolve, loopWorkflow, StepDefinition.ofKind,
          Resolution.steps, Resolution.step, Resolution.used, used, Except.map,
          Resolution.requestStep, looped]
        exact ⟨_, rfl, rfl, rfl, _, rfl, rfl⟩
      rcases resolves with
        ⟨workflow, resolved, requests, bindings, core, steps, unbound⟩
      refine ⟨workflow, resolved, ⟨?_, ?_⟩, bindings⟩
      · rw [ResolvedWorkflow.request?, requests]
        exact Document.get?_requestTable_name listed
      · intro index step current
        rw [steps] at current
        cases index with
        | zero =>
            rcases Option.some.inj current with rfl
            exact ⟨core, rfl, unbound⟩
        | succ index => cases current

/-- A run sends a request in its own loop, whatever the variables and the answers
are; without a loop it does not start. -/
def RunRequest.Repeats (request : RunRequest) (sent : Request) : Prop :=
  ∀ (engine : Engine) (evaluator : Evaluator) (base : Scope) (now : Int),
    engine.run = none →
    match sent.loop with
    | none =>
        engine.start evaluator { request with ambient := base } now =
          pure
            (.error (.unresolved ⟨request.workflow.name, 1, .missingLoop⟩), engine)
    | some loop => ∀ answers, ∃ log directive after,
        engine.play evaluator { request with ambient := base } now answers =
            ⟨log, .ok directive, after⟩ ∧
          log.InLoop evaluator base sent loop

/-- The workflow of a request repeats what the table lists under the request's
name, which need not be the request. -/
theorem RunRequest.repeats_of_listed {document : Document} {found sent : Request}
    (listed : document.requestTable.get? (requestTableKey found.name) = some sent)
    (base : Scope) :
    (⟨document, loopWorkflow found, .adHoc, base⟩ : RunRequest).Repeats sent := by
  intro engine evaluator base now free
  have resolves := resolve_loopWorkflow listed
  cases looped : sent.loop with
  | none =>
      simp only [looped] at resolves
      exact Engine.start_of_unresolved free resolves evaluator now
  | some loop =>
      simp only [looped] at resolves
      rcases resolves with ⟨workflow, resolved, repeats, bindings⟩
      intro answers
      let request : RunRequest := ⟨document, loopWorkflow found, .adHoc, base⟩
      have known : request.workflow.resolve request.document = .ok workflow :=
        resolved
      rcases Engine.brings_play free known evaluator now answers with
        ⟨played, equal, brings⟩
      have begins : Run.Begins request (engine.beginRun request workflow now) :=
        .beginRun resolved now
      rcases brings.reaches with ⟨next, stage, reached⟩
      exact ⟨_, _, _, equal,
        (reached.repeating begins rfl bindings repeats).inLoop⟩

/-! ## Two look-ups -/

/-- What a name stands for: the search and the table pick each their own request
of those that go by the name, and a run of the request by its name takes the
table's. -/
structure Document.LooksUp (document : Document) (name : String) : Prop where
  /-- The search takes the first one that is declared without blanks around its
  name. -/
  found :
    document.findRequest? name = (document.namesakes name).find? Request.isTrimmed
  /-- A resolved workflow has the last one in its table. -/
  listed :
    ∀ workflow resolved,
      WorkflowDefinition.resolve workflow document = .ok resolved →
        resolved.request? name = (document.namesakes name).getLast?
  /-- They agree where nothing goes by the name, or where the last one is the one
  that is found. -/
  agree_iff :
    ∀ workflow resolved,
      WorkflowDefinition.resolve workflow document = .ok resolved →
        (document.findRequest? name = resolved.request? name ↔
          document.namesakes name = [] ∨
            ∃ request,
              (document.namesakes name).find? Request.isTrimmed = some request ∧
                (document.namesakes name).getLast? = some request)
  /-- They agree if no two requests go by one name and none has blanks around its
  own. -/
  ordinary : (∀ request ∈ document.requests, request.isTrimmed = true) →
    (document.requests.Pairwise fun first second =>
      requestTableKey first.name ≠ requestTableKey second.name) →
    ∀ workflow resolved,
      WorkflowDefinition.resolve workflow document = .ok resolved →
        document.findRequest? name = resolved.request? name
  /-- A run by the name asks the one that is found for a loop, and sends the other
  in its own. -/
  adHoc : ∀ request, RunRequest.ofRequest document name = .ok request →
    ∃ found last, document.findRequest? name = some found ∧ found.loop.isSome ∧
      (document.namesakes name).getLast? = some last ∧ request.Repeats last

/-- The two look-ups of a name agree exactly if the last request that goes by the
name is the first one that is declared without blanks around it, and a run by the
name sends the last. -/
theorem Document.looksUp (document : Document) (name : String) :
    document.LooksUp name := by
  refine ⟨document.findRequest?_eq name, ?_, ?_, ?_, ?_⟩
  · intro workflow resolved resolves
    rw [ResolvedWorkflow.request?_of_resolve resolves, get?_requestTable]
  · intro workflow resolved resolves
    rw [ResolvedWorkflow.request?_of_resolve resolves]
    exact document.findRequest?_eq_get?_requestTable_iff name
  · intro trim distinct workflow resolved resolves
    rw [ResolvedWorkflow.request?_of_resolve resolves]
    exact findRequest?_eq_get?_requestTable trim distinct name
  · intro request asked
    rw [RunRequest.ofRequest] at asked
    cases search : document.findRequest? name with
    | none =>
        rw [search] at asked
        cases asked
    | some found =>
        simp only [search] at asked
        split at asked
        · cases asked
        · next looped =>
            rcases Except.ok.inj asked with rfl
            have first := search
            rw [findRequest?_eq] at first
            have key := (mem_namesakes.mp (List.mem_of_find?_eq_some first)).2
            cases last : (document.namesakes name).getLast? with
            | none =>
                rw [List.getLast?_eq_none_iff.mp last] at first
                cases first
            | some sent =>
                refine ⟨found, sent, rfl, ?_, rfl, ?_⟩
                · rw [← Option.not_isNone, Bool.not_eq_true']
                  exact eq_false_of_ne_true looped
                · apply RunRequest.repeats_of_listed
                  rw [key, get?_requestTable, last]

/-! ### Two requests of one name -/

/-- A request that is sent for each item of a source. -/
def visitRequest (name url source : String) : Request :=
  { name := name
    protocol := .http
    method := "GET"
    url := url
    headers := .empty
    body := none
    guard := none
    loop := some ⟨source, "item", 2⟩
    options := .inherit
    line := 1 }

/-- Two requests whose names are the same but for a blank. -/
def doubleVisit : Document :=
  ⟨none, .empty, .inherit,
    [visitRequest "visit" "/first" "users",
      visitRequest "visit " "/second" "groups"], []⟩

/-- One item, whatever the source. -/
def oneItem : Evaluator :=
  fun _ => .ok (.list [.data (.bool true)])

/-- The search finds the first request, but the run evaluates the loop of the
second and sends that. -/
theorem lookups_differ_doubleVisit :
    ∃ request resolved,
      RunRequest.ofRequest doubleVisit "visit" = .ok request ∧
      request.workflow.resolve doubleVisit = .ok resolved ∧
      (doubleVisit.findRequest? "visit").map Request.url = some "/first" ∧
      (resolved.request? "visit").map Request.url = some "/second" ∧
      (Engine.idle.play oneItem request 0 []).queries.map Query.text = ["groups"] ∧
      (Engine.idle.play oneItem request 0 []).log.dispatches.map
        (fun dispatch => dispatch.request.url) = ["/second"] := by
  refine ⟨_, _, rfl, rfl, ?_⟩
  decide +kernel

end RequestFlow
