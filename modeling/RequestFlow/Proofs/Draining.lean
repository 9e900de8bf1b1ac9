import RequestFlow.Proofs.Faults
import RequestFlow.Proofs.Sending
import RequestFlow.Proofs.Serving

/-!
# Errors of a run, collected

What goes wrong in a run by itself can be read off its acts without a look at its
results: a condition cannot be evaluated, the source of a loop yields no list, an
item of a loop has no text.  Main statement: whenever the errors of a run are
collected, all collections together are the lines of the results that tell an
error without a response, in order, and there is one such result for each thing
that went wrong, and for nothing else.
-/

namespace RequestFlow

open Condition

/-! ## What goes wrong by itself -/

/-- The items of a loop, once its source has yielded them. -/
def Condition.Query.itemsOr (evaluator : Evaluator) (query : Query)
    (items : List Value) : List Value :=
  if query.role = .loop then
    ((evaluator query).bind Value.items).toOption.getD items
  else items

theorem Condition.Query.itemsOr_of_other {evaluator : Evaluator} {query : Query}
    (other : query.role ≠ .loop) (items : List Value) :
    query.itemsOr evaluator items = items :=
  if_neg other

theorem Condition.Query.itemsOr_of_loop {evaluator : Evaluator} {query : Query}
    (role : query.role = .loop) {found : List Value}
    (yields : (evaluator query).bind Value.items = .ok found)
    (items : List Value) : query.itemsOr evaluator items = found := by
  rw [itemsOr, if_pos role, yields]
  rfl

/-- The error of the item at a place of a loop, if it has no text. -/
def itemFault? (items : List Value) (iteration : Option Iteration) :
    Option ValueError :=
  (iteration.bind fun iteration => items[iteration.index - 1]?).bind fun item =>
    match item.text with
    | .error error => some error
    | .ok _ => none

namespace Act

/-- The items of the loop after an act. -/
def itemsAfter (evaluator : Evaluator) (items : List Value) : Act → List Value
  | noted (.asked query) => query.itemsOr evaluator items
  | _ => items

/-- What an act tells of that went wrong by itself: a condition, or the item whose
result is recorded. -/
def fault? (evaluator : Evaluator) (items : List Value) : Act → Option ValueError
  | noted (.asked query) => query.fault? evaluator
  | recorded result => itemFault? items result.iteration
  | _ => none

end Act

namespace Log

/-- The items of the loop whose source was evaluated last. -/
def itemsAfter (evaluator : Evaluator) (items : List Value) (log : Log) :
    List Value :=
  log.foldl (Act.itemsAfter evaluator) items

/-- What went wrong by itself, in order. -/
def faults (evaluator : Evaluator) : List Value → Log → List ValueError
  | _, [] => []
  | items, act :: log =>
      (act.fault? evaluator items).toList ++
        faults evaluator (act.itemsAfter evaluator items) log

/-- The errors that results without a response tell, in order. -/
def told (log : Log) : List String :=
  (log.results.filter StepResult.isFaulty).filterMap StepResult.error

variable {evaluator : Evaluator}

theorem itemsAfter_append (items : List Value) (first second : Log) :
    itemsAfter evaluator items (first ++ second) =
      itemsAfter evaluator (itemsAfter evaluator items first) second :=
  List.foldl_append

theorem faults_append (items : List Value) (first second : Log) :
    faults evaluator items (first ++ second) =
      faults evaluator items first ++
        faults evaluator (itemsAfter evaluator items first) second := by
  induction first generalizing items with
  | nil => rfl
  | cons act first hypothesis =>
      rw [List.cons_append, faults, hypothesis, faults, List.append_assoc]
      rfl

theorem itemsAfter_asked (items : List Value) (query : Query) :
    itemsAfter evaluator items [.noted (.asked query)] =
      query.itemsOr evaluator items :=
  rfl

theorem faults_asked (items : List Value) (query : Query) :
    faults evaluator items [.noted (.asked query)] =
      (query.fault? evaluator).toList :=
  List.append_nil _

theorem told_append (first second : Log) :
    told (first ++ second) = first.told ++ second.told := by
  rw [told, results_append, List.filter_append, List.filterMap_append]
  rfl

/-- An error that is raised changes nothing of this. -/
theorem faults_raiseErrorOf (items : List Value) (result : StepResult) :
    faults evaluator items (Run.raiseErrorOf result).log = [] ∧
      itemsAfter evaluator items (Run.raiseErrorOf result).log = items := by
  rw [Run.raiseErrorOf]
  split <;> exact ⟨rfl, rfl⟩

/-- Conditions that were evaluated without a fault, and no loop source among
them. -/
theorem SoundFor.faults {context : StepContext} {core : StepCore} {log : Log}
    (sound : log.SoundFor context core) (items : List Value) :
    log.faults context.evaluator items = [] ∧
      log.itemsAfter context.evaluator items = items := by
  induction log with
  | nil => exact ⟨rfl, rfl⟩
  | cons act log hypothesis =>
      rcases sound act List.mem_cons_self with
        ⟨role, condition, value, rfl, other, answered⟩
      have same :
          (context.asked core role condition).itemsAfter context.evaluator items =
            items :=
        Query.itemsOr_of_other other items
      have silent :
          (context.asked core role condition).fault? context.evaluator items =
            none :=
        Query.fault?_of_ok answered other
      rcases hypothesis fun later member =>
          sound later (List.mem_cons_of_mem _ member) with
        ⟨quiet, unchanged⟩
      rw [Log.faults, itemsAfter, List.foldl_cons, same, silent]
      exact ⟨quiet, unchanged⟩

end Log

/-! ## The items of the active step -/

/-- A loop walks through the items. -/
def Loop.WalksThrough (loop : Loop) (items : List Value) : Prop :=
  loop.ahead = items.drop loop.done ∧ loop.size = items.length

theorem Loop.WalksThrough.advance {loop : Loop} {items : List Value}
    (walks : loop.WalksThrough items) : loop.advance.WalksThrough items := by
  refine ⟨?_, by rw [Loop.size_advance, walks.2]⟩
  rw [Loop.advance]
  split
  · exact walks.1
  · next equal =>
      show _ = items.drop (loop.done + 1)
      rw [← List.tail_drop, ← walks.1, equal, List.tail_cons]

/-- The item that a loop is at. -/
theorem Loop.WalksThrough.item {loop : Loop} {items ahead : List Value}
    {item : Value} (walks : loop.WalksThrough items)
    (present : loop.ahead = item :: ahead) :
    items[loop.iteration.index - 1]? = some item := by
  have place : loop.iteration.index - 1 = loop.done := by
    simp only [Loop.iteration, Loop.size, present, List.length_cons]
    omega
  rw [place, ← List.head?_drop, ← walks.1, present, List.head?_cons]

/-! ## What goes wrong in a decision -/

/-- A decision that ends the step tells what has gone wrong in it, and one that
sends the request is without fault and has its items from the last loop source. -/
theorem Way.faults {context : StepContext} {core : StepCore}
    {suits : Target → Prop} {decision : Traced NextAction}
    (way : Way context core suits decision) (items : List Value) :
    match decision.value with
    | .record result _ =>
        (decision.log.faults context.evaluator items).map ValueError.message =
            result.error.toList ∧ result.iteration = none ∧ result.response = none
    | .dispatch active =>
        decision.log.faults context.evaluator items = [] ∧
          ∀ loop, active.progress = .looping loop →
            loop.WalksThrough
              (decision.log.itemsAfter context.evaluator items) := by
  cases way with
  | settles sound =>
      refine ⟨?_, rfl, rfl⟩
      rw [(sound.faults items).1]
      rfl
  | fails sound fault =>
      refine ⟨?_, rfl, rfl⟩
      rw [Log.faults_append, (sound.faults items).1, StepContext.asked,
        Log.faults_asked, fault]
      rfl
  | idles sound yields =>
      refine ⟨?_, rfl, rfl⟩
      rw [Log.faults_append, (sound.faults items).1, StepContext.asked,
        Log.faults_asked, Query.fault?_of_loop rfl, yields]
      rfl
  | sends sound suited single affirmed =>
      refine ⟨(sound.faults items).1, ?_⟩
      rintro loop ⟨⟩
  | loops sound suited looping yields nonempty =>
      refine ⟨?_, ?_⟩
      · rw [Log.faults_append, (sound.faults items).1, StepContext.asked,
          Log.faults_asked, Query.fault?_of_loop rfl, yields]
        rfl
      · rintro started ⟨⟩
        rw [Log.itemsAfter_append, StepContext.asked, Log.itemsAfter_asked,
          Query.itemsOr_of_loop rfl yields]
        exact ⟨rfl, Nat.zero_add _⟩

namespace Run

/-! ## Results that are recorded -/

variable {evaluator : Evaluator} {run next : Run} {stage later : Stage}
  {acts log : Log} {items : List Value}

/-- A result without a response tells its error. -/
theorem told_record {index : Nat} {asked : Log} (asks : asked.AsksFor index)
    {result : StepResult} (unanswered : result.response = none) :
    Log.told (asked ++ (raiseErrorOf result).log ++ [.recorded result]) =
      result.error.toList := by
  have results :
      Log.results (asked ++ (raiseErrorOf result).log ++ [.recorded result]) =
        [result] := by
    simp [asks.results]
  have faulty : result.isFaulty = result.error.isSome := by
    rw [StepResult.isFaulty, unanswered]
    exact Bool.and_true _
  rw [Log.told, results, List.filter_singleton, faulty]
  cases told : result.error with
  | none => rfl
  | some error => simp [told]

/-- Where a result is recorded, what went wrong is what did so before, or its
item. -/
theorem faults_record (items : List Value) (asked : Log) (result : StepResult) :
    Log.faults evaluator items
        (asked ++ (raiseErrorOf result).log ++ [.recorded result]) =
      asked.faults evaluator items ++
        (itemFault? (asked.itemsAfter evaluator items)
          result.iteration).toList := by
  have raised :
      Log.faults evaluator (asked.itemsAfter evaluator items)
            (raiseErrorOf result).log = [] ∧ _ :=
    Log.faults_raiseErrorOf _ result
  rcases raised with ⟨silent, same⟩
  rw [Log.faults_append, Log.faults_append, silent, List.append_nil,
    Log.itemsAfter_append, same, Log.faults, Log.faults, List.append_nil]
  rfl

theorem itemsAfter_record (items : List Value) (asked : Log)
    (result : StepResult) :
    Log.itemsAfter evaluator items
        (asked ++ (raiseErrorOf result).log ++ [.recorded result]) =
      asked.itemsAfter evaluator items := by
  rw [Log.itemsAfter_append, Log.itemsAfter_append,
    (Log.faults_raiseErrorOf _ result).2]
  rfl

theorem itemFault?_of_text {iteration : Iteration} {item : Value} {text : String}
    (present : items[iteration.index - 1]? = some item)
    (bound : item.text = .ok text) : itemFault? items (some iteration) = none := by
  rw [itemFault?, Option.bind_some, present, Option.bind_some, bound]

/-- An item that is passed over tells what has gone wrong with it. -/
theorem PassesOver.told {active : ActiveStep} {loop : Loop} {item : Value}
    {ahead : List Value} {asked : Log} {result : StepResult}
    (walks : loop.WalksThrough items) (present : loop.ahead = item :: ahead)
    (passed : PassesOver evaluator run active loop item asked result) :
    (Log.faults evaluator items
          (asked ++ (raiseErrorOf result).log ++ [.recorded result])).map
          ValueError.message = result.error.toList ∧
      asked.itemsAfter evaluator items = items ∧ result.response = none := by
  have there := walks.item present
  have other (text : String) (guard : SourceCondition) :
      (run.itemQuery active loop item text guard).role ≠ .loop := by
    show Role.guard ≠ Role.loop
    decide
  have asks (text : String) (guard : SourceCondition) :
      Log.itemsAfter evaluator items
          [.noted (.asked (run.itemQuery active loop item text guard))] =
        items := by
    rw [Log.itemsAfter_asked, Query.itemsOr_of_other (other text guard)]
  rw [faults_record]
  cases passed with
  | unbound unbound =>
      refine ⟨?_, rfl, rfl⟩
      show List.map _ ([] ++ (itemFault? items (some loop.iteration)).toList) = _
      rw [itemFault?, Option.bind_some, there, Option.bind_some, unbound]
      rfl
  | refused bound guarded answered refused =>
      refine ⟨?_, asks _ _, rfl⟩
      rw [asks, Log.faults_asked, Query.fault?_of_ok answered (other _ _)]
      show List.map _ ([] ++ (itemFault? items (some loop.iteration)).toList) = _
      rw [itemFault?_of_text there bound]
      rfl
  | faulty bound guarded failed =>
      refine ⟨?_, asks _ _, rfl⟩
      rw [asks, Log.faults_asked, Query.fault?_of_error failed]
      show List.map _ (_ ++ (itemFault? items (some loop.iteration)).toList) = _
      rw [itemFault?_of_text there bound]
      rfl

/-! ## Along a run -/

/-- The results of a run tell what went wrong by itself.  The active step walks
through the items of the loop source that was evaluated last, and the item that is
under way has a text. -/
structure Tells (evaluator : Evaluator) (run : Run) (stage : Stage) (log : Log) :
    Prop where
  told : log.told = (log.faults evaluator []).map ValueError.message
  walks :
    ∀ active loop, run.active = some active → active.progress = .looping loop →
      loop.WalksThrough (log.itemsAfter evaluator [])
  flying :
    ∀ dispatch inFlight, stage = .waiting dispatch → run.inFlight = some inFlight →
      itemFault? (log.itemsAfter evaluator []) inFlight.iteration = none

/-- A step that has gone on in its loop was in it. -/
theorem looping_of_advance {active : ActiveStep} {walking : Loop}
    (progress : active.advance.progress = .looping walking) :
    ∃ loop, active.progress = .looping loop ∧ walking = loop.advance := by
  rw [ActiveStep.advance] at progress
  cases before : active.progress with
  | single dispatched =>
      rw [before] at progress
      cases progress
  | looping loop =>
      rw [before] at progress
      exact ⟨loop, rfl, (Progress.looping.inj progress).symm⟩

/-- An answer tells no error of the run. -/
theorem told_answered {active : ActiveStep} {inFlight : InFlight}
    {outcome : Outcome} {result : StepResult}
    (answer : answerOf? active inFlight outcome = some result) :
    Log.told [.recorded result] = [] := by
  have surfaces : Log.Surfaces (fun _ => .ok default) [.recorded result] :=
    surfaces_answered answer
  rw [Log.told, List.map_eq_nil_iff.mp surfaces.lines.symm]
  rfl

/-- Acts that tell what goes wrong in them. -/
theorem Tells.told_append (tells : Tells evaluator run stage log)
    (acts_told :
      acts.told =
        (acts.faults evaluator (log.itemsAfter evaluator [])).map
          ValueError.message) :
    (log ++ acts).told =
      ((log ++ acts).faults evaluator []).map ValueError.message := by
  rw [Log.told_append, Log.faults_append, List.map_append, tells.told, acts_told]

theorem Yields.tells {workflow : WorkflowDefinition} {document : Document}
    {result : StepResult} {policy : Policy}
    (resolved : workflow.resolve document = .ok run.workflow)
    (yields : Yields evaluator run stage acts result policy next)
    (tells : Tells evaluator run stage log) :
    Tells evaluator next .working (log ++ (acts ++ [.recorded result])) := by
  cases yields with
  | @settled step asked result policy free current decided =>
      rcases way_of_resolve resolved current (run.contextFor evaluator step)
          rfl with
        ⟨definition, declared, stepResolves, way⟩
      have decides := stepResolves.decides (run.contextFor evaluator step)
      have faults := way.faults (log.itemsAfter evaluator [])
      rw [decided] at decides faults
      rcases faults with ⟨faults, unplaced, unanswered⟩
      refine ⟨tells.told_append ?_, ?_, ?_⟩
      · rw [told_record decides.asks unanswered, faults_record, unplaced]
        show _ = List.map _ (_ ++ [])
        rw [List.append_nil]
        exact faults.symm
      · intro active loop present
        cases free.symm.trans present
      · rintro dispatch inFlight ⟨⟩
  | @passedOver active loop item ahead asked result present looping items passed =>
      rcases passed.told (tells.walks active loop present looping) items with
        ⟨faults, same, unanswered⟩
      have after : Log.itemsAfter evaluator []
          (log ++ (asked ++ (raiseErrorOf result).log ++ [.recorded result])) =
            log.itemsAfter evaluator [] := by
        rw [Log.itemsAfter_append, itemsAfter_record, same]
      refine ⟨tells.told_append ?_, ?_, ?_⟩
      · rw [told_record passed.explores.asks unanswered, faults]
      · rintro further walking ⟨⟩ progress
        rcases looping_of_advance progress with ⟨before, walked, rfl⟩
        rw [after]
        exact (tells.walks active before present walked).advance
      · rintro dispatch inFlight ⟨⟩
  | @answered dispatch active inFlight outcome result flying present answer =>
      -- The item had a text when its request was sent, so the result tells no
      -- fault of the item.
      have after :
          Log.itemsAfter evaluator [] (log ++ ([] ++ [.recorded result])) =
            log.itemsAfter evaluator [] := by
        rw [Log.itemsAfter_append]
        rfl
      have sound :
          Log.faults evaluator (log.itemsAfter evaluator []) [.recorded result] =
            [] := by
        show (itemFault? _ result.iteration).toList ++ [] = []
        rw [(place_of_answerOf? answer).2,
          tells.flying dispatch inFlight rfl flying]
        rfl
      refine ⟨tells.told_append ?_, ?_, ?_⟩
      · rw [List.nil_append, told_answered answer, sound]
        rfl
      · rintro further walking ⟨⟩ progress
        rcases looping_of_advance progress with ⟨before, walked, rfl⟩
        rw [after]
        exact (tells.walks active before present walked).advance
      · rintro dispatch inFlight ⟨⟩

/-- Whatever an active step is ready for, nothing has gone wrong with it, and its
item has a text. -/
theorem Ready.tells {active sender : ActiveStep} {scope : DispatchScope}
    {iteration : Option Iteration} (tells : Tells evaluator run .working log)
    (present : run.active = some active)
    (ready : Ready evaluator run active acts sender scope iteration) :
    acts.faults evaluator (log.itemsAfter evaluator []) = [] ∧
      acts.itemsAfter evaluator (log.itemsAfter evaluator []) =
        log.itemsAfter evaluator [] ∧
      itemFault? (log.itemsAfter evaluator []) iteration = none ∧
      ∀ loop,
        sender.progress = .looping loop → active.progress = .looping loop := by
  cases ready with
  | once fresh =>
      refine ⟨rfl, rfl, rfl, ?_⟩
      rintro loop ⟨⟩
  | item looping items bound unguarded =>
      have there := (tells.walks active _ present looping).item items
      exact ⟨rfl, rfl, itemFault?_of_text there bound, fun _ looped => looped⟩
  | @guardedItem loop item ahead text guard value looping items bound guarded
      answered accepted =>
      have there := (tells.walks active loop present looping).item items
      have other : (run.itemQuery active loop item text guard).role ≠ .loop := by
        show Role.guard ≠ Role.loop
        decide
      refine ⟨?_, ?_, itemFault?_of_text there bound, fun _ looped => looped⟩
      · rw [Log.faults_asked, Query.fault?_of_ok answered other]
        rfl
      · rw [Log.itemsAfter_asked, Query.itemsOr_of_other other]

theorem Move.tells {workflow : WorkflowDefinition} {document : Document}
    (resolved : workflow.resolve document = .ok run.workflow)
    (moved : Move evaluator run stage acts next later)
    (tells : Tells evaluator run stage log) :
    Tells evaluator next later (log ++ acts) := by
  cases moved with
  | goesOn yields lasting => exact yields.tells resolved tells
  | stops yields halting =>
      refine ⟨(yields.tells resolved tells).told, ?_, ?_⟩
      · rintro active loop ⟨⟩
      · rintro dispatch inFlight ⟨⟩
  | @enters step asked active free current decided =>
      rcases way_of_resolve resolved current (run.contextFor evaluator step)
          rfl with
        ⟨definition, declared, stepResolves, way⟩
      have decides := stepResolves.decides (run.contextFor evaluator step)
      have faults := way.faults (log.itemsAfter evaluator [])
      rw [decided] at decides faults
      rcases faults with ⟨faults, walks⟩
      refine ⟨tells.told_append ?_, ?_, ?_⟩
      · have sound :
            Log.faults evaluator (log.itemsAfter evaluator []) acts = [] :=
          faults
        rw [sound, Log.told, decides.asks.results]
        rfl
      · rintro other loop ⟨⟩ looping
        rw [Log.itemsAfter_append]
        exact walks loop looping
      · rintro dispatch inFlight ⟨⟩
  | leaves present finished =>
      rw [List.append_nil]
      refine ⟨tells.told, ?_, ?_⟩
      · rintro active loop ⟨⟩
      · rintro dispatch inFlight ⟨⟩
  | @sends active sender asked scope iteration present ready =>
      rcases ready.tells tells present with ⟨faults, same, texts, walking⟩
      have after : Log.itemsAfter evaluator []
          (log ++ (asked ++ [.sent (run.send sender scope iteration).2])) =
            log.itemsAfter evaluator [] := by
        rw [Log.itemsAfter_append, Log.itemsAfter_append, same]
        rfl
      refine ⟨tells.told_append ?_, ?_, ?_⟩
      · rw [Log.faults_append, faults, Log.told_append, Log.told,
          ready.explores.asks.results]
        rfl
      · rintro other loop ⟨⟩ looping
        rw [after]
        exact tells.walks active loop present (walking loop looping)
      · rintro dispatch inFlight - ⟨⟩
        rw [after]
        exact texts
  | completes free done =>
      rw [List.append_nil]
      refine ⟨tells.told, tells.walks, ?_⟩
      rintro dispatch inFlight ⟨⟩
  | cancels =>
      rw [List.append_nil]
      refine ⟨tells.told, tells.walks, ?_⟩
      rintro dispatch inFlight ⟨⟩

/-- Wherever moves lead to, the results of the run tell what went wrong by
itself. -/
theorem Reaches.tells {request : RunRequest} {first : Run}
    (begins : Begins request first)
    (reached : Reaches evaluator first .working log run stage) :
    Tells evaluator run stage log := by
  induction reached with
  | refl =>
      refine ⟨rfl, ?_, ?_⟩
      · intro active loop present
        cases begins.active.symm.trans present
      · rintro dispatch inFlight ⟨⟩
  | move reached moved hypothesis =>
      have resolved := begins.resolved
      rw [← reached.workflow_eq] at resolved
      exact moved.tells resolved hypothesis

end Run

namespace Engine

/-- Whatever the calls are that serve a run of an engine without errors, and
whenever its errors are collected: together with what is still to be collected
they are the lines of the results that tell an error without a response, in order,
and there is one such result for each thing that went wrong by itself.  The
results are those of the run, and of its report once it is over. -/
theorem errors_collected_once {engine : Engine} {request : RunRequest}
    {workflow : ResolvedWorkflow} (free : engine.run = none)
    (clean : engine.errors = [])
    (resolved : request.workflow.resolve request.document = .ok workflow)
    (evaluator : Evaluator) (now : Int) {calls : List Call}
    (alone :
      (engine.serve evaluator (.start request now :: calls)).past.tail.any
          launches = false) :
    let service := engine.serve evaluator (.start request now :: calls)
    let faulty := service.log.results.filter StepResult.isFaulty
    collectedBy service.past ++ service.engine.drainErrors.1 =
        faulty.map StepResult.errorLine ∧
      faulty.filterMap StepResult.error =
        (service.log.faults evaluator []).map ValueError.message ∧
      (∀ run, service.engine.run = some run →
        reportsOf service.past = [] ∧ run.results = service.log.results) ∧
      (service.engine.run = none →
        ∃ report, reportsOf service.past = [report] ∧
          report.results = service.log.results) := by
  intro service faulty
  have begins : Run.Begins request (engine.beginRun request workflow now) :=
    .beginRun resolved now
  have collected := collected_serve evaluator engine (.start request now :: calls)
  have serves := serves_run free resolved evaluator now alone
  simp only [clean, List.nil_append] at collected
  cases serves with
  | @waiting run dispatch running unreported reached =>
      refine ⟨collected.trans (reached.surfaces begins).lines,
        (reached.tells begins).told, ?_, ?_⟩
      · intro other present
        rcases Option.some.inj (running.symm.trans present) with rfl
        exact ⟨unreported, reached.results_eq begins⟩
      · intro gone
        cases running.symm.trans gone
  | @finished run ending reason later gone reported reached =>
      refine ⟨collected.trans (reached.surfaces begins).lines,
        (reached.tells begins).told, ?_, ?_⟩
      · intro other present
        cases gone.symm.trans present
      · intro _
        exact ⟨_, reported, reached.results_eq begins⟩

end Engine

/-! ### An item without a text, a failed response and a condition that fails -/

/-- The request is sent for each user, failures apart, and then once more under a
condition. -/
def visitThenAsk : RunRequest :=
  userWorkflow
    [{ StepDefinition.ofKind .forEach with
        using_ := some "user"
        policy := some .goOn
        loop := some ⟨"users", "user", 3⟩ },
      { StepDefinition.ofKind .request with
        using_ := some "user"
        guard := some "open" }]

/-- There are a user without a text and another one, and no other condition can be
evaluated. -/
def oneBrokenUser : Evaluator :=
  fun query =>
    if query.role = .loop then .ok (.list [.host "Socket", .data (.bool true)])
    else .error (.evaluation query.line "unknown name")

theorem errors_collected_once_visitThenAsk :
    let calls : List Call :=
      [.drain, .respond ⟨1, 1⟩ (.completed (.transportFailure "refused")) 1,
        .drain]
    let service := Engine.idle.serve oneBrokenUser (.start visitThenAsk 0 :: calls)
    let faulty := service.log.results.filter StepResult.isFaulty
    (collectedBy service.past ++ service.engine.drainErrors.1 =
          faulty.map StepResult.errorLine ∧
        faulty.filterMap StepResult.error =
          (service.log.faults oneBrokenUser []).map ValueError.message) ∧
      service.log.results.length = 3 ∧
      collectedBy service.past =
        ["user (1/2): cannot convert Socket value to text",
          "user: <unknown line>: unknown name"] := by
  intro calls service faulty
  have once :=
    Engine.errors_collected_once (rfl : Engine.idle.run = none) rfl
      (rfl : visitThenAsk.workflow.resolve visitThenAsk.document = .ok _)
      oneBrokenUser 0
      (show
        (Engine.idle.serve oneBrokenUser
          (.start visitThenAsk 0 :: calls)).past.tail.any launches = false by
        decide +kernel)
  exact ⟨⟨once.1, once.2.1⟩, by decide +kernel⟩

end RequestFlow
