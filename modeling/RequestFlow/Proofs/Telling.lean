import RequestFlow.Proofs.Blocks
import RequestFlow.Proofs.Driving
import RequestFlow.Proofs.Faults

/-!
# What a drive tells

The events of a drive follow the acts of its run.  What was raised and recorded
since the last request is told before the next one is handed to the client: the
errors first, then the results.  Main statement: along its course a drive tells
exactly the acts of its run, from each request to the next, and it ends with the
report of the engine, or after a command, or waits for an answer that never comes.
-/

namespace RequestFlow.Drive

open Condition

variable {Client : Type}

/-! ## Events of acts -/

namespace Event

/-- The result that an event tells. -/
def result? : Event → Option StepResult
  | stepFinished result => some result
  | _ => none

/-- The error that an event tells. -/
def message? : Event → Option String
  | error message => some message
  | _ => none

/-- The token and the line of the request that an event tells of. -/
def request? : Event → Option (Token × String)
  | stepStarted token line => some (token, line)
  | _ => none

/-- The event tells neither the beginning nor the end of a run. -/
def IsAmid : Event → Prop
  | runStarted _ _ _ => False
  | runCompleted _ => False
  | _ => True

end Event

/-- What is told of acts at once: the errors, then the results. -/
def batch (acts : Log) : List Event :=
  acts.errors.map .error ++ acts.results.map .stepFinished

/-- What is told of acts, where some before them are still to be told. -/
def tell (pending : Log) : Log → List Event
  | [] => batch pending
  | .sent dispatch :: acts =>
      batch pending ++ .stepStarted dispatch.token dispatch.statusLine ::
        tell [] acts
  | act :: acts => tell (pending ++ [act]) acts

theorem isAmid_of_mem_batch {acts : Log} {event : Event}
    (member : event ∈ batch acts) : event.IsAmid ∧ event.request? = none := by
  rcases List.mem_append.mp member with member | member
  · rcases List.mem_map.mp member with ⟨message, raised, rfl⟩
    exact ⟨trivial, rfl⟩
  · rcases List.mem_map.mp member with ⟨result, recorded, rfl⟩
    exact ⟨trivial, rfl⟩

/-- Acts are told amid a run, neither as its beginning nor as its end. -/
theorem isAmid_of_mem_tell (pending acts : Log) {event : Event}
    (member : event ∈ tell pending acts) : event.IsAmid := by
  induction acts generalizing pending with
  | nil => exact (isAmid_of_mem_batch member).1
  | cons act acts hypothesis =>
      cases act with
      | sent dispatch =>
          rcases List.mem_append.mp member with member | member
          · exact (isAmid_of_mem_batch member).1
          · rcases List.mem_cons.mp member with rfl | member
            · trivial
            · exact hypothesis [] member
      | noted note => exact hypothesis _ member
      | recorded result => exact hypothesis _ member

/-- Acts that send nothing are told with those before them. -/
theorem tell_append (pending : Log) {quiet : Log} (silent : quiet.dispatches = [])
    (acts : Log) :
    tell pending (quiet ++ acts) = tell (pending ++ quiet) acts := by
  induction quiet generalizing pending with
  | nil => rw [List.nil_append, List.append_nil]
  | cons act quiet hypothesis =>
      have later := hypothesis (pending ++ [act])
      rw [List.append_assoc, List.singleton_append] at later
      cases act with
      | sent dispatch => cases silent
      | noted note => exact later silent
      | recorded result => exact later silent

/-- What is told up to a request is told before it, and the rest after it. -/
theorem tell_request (pending first : Log) (dispatch : Dispatch) (rest : Log) :
    tell pending (first ++ .sent dispatch :: rest) =
      tell pending first ++ .stepStarted dispatch.token dispatch.statusLine ::
        tell [] rest := by
  induction first generalizing pending with
  | nil => rfl
  | cons act first hypothesis =>
      cases act with
      | sent other =>
          show
            batch pending ++ .stepStarted other.token other.statusLine ::
                tell [] (first ++ _) = _
          rw [hypothesis]
          exact (List.append_assoc (batch pending)
            (.stepStarted other.token other.statusLine :: tell [] first) _).symm
      | noted note => exact hypothesis _
      | recorded result => exact hypothesis _

/-- Without a request the acts are told at once. -/
theorem tell_quiet {quiet : Log} (silent : quiet.dispatches = []) :
    tell [] quiet = batch quiet := by
  have whole := tell_append [] silent []
  rw [List.append_nil] at whole
  exact whole

/-- What is seen of the events is what is seen of the acts, if this is so of acts
that are told at once and of a request. -/
theorem filterMap_tell {Item : Type} (project : Event → Option Item)
    (view : Log → List Item)
    (append : ∀ first second, view (first ++ second) = view first ++ view second)
    (batched : ∀ acts : Log,
        acts.dispatches = [] → (batch acts).filterMap project = view acts)
    (started : ∀ dispatch : Dispatch,
        view [.sent dispatch] =
          (project (.stepStarted dispatch.token dispatch.statusLine)).toList)
    {pending : Log} (silent : pending.dispatches = []) (acts : Log) :
    (tell pending acts).filterMap project = view (pending ++ acts) := by
  induction acts generalizing pending with
  | nil =>
      rw [List.append_nil]
      exact batched pending silent
  | cons act acts hypothesis =>
      have more (quiet : Log.dispatches [act] = []) :
          (tell (pending ++ [act]) acts).filterMap project =
            view (pending ++ act :: acts) := by
        have still : Log.dispatches (pending ++ [act]) = [] := by
          rw [Log.dispatches_append, silent, quiet]
          rfl
        rw [hypothesis still, List.append_assoc, List.singleton_append]
      cases act with
      | sent dispatch =>
          have rest : (tell [] acts).filterMap project = view acts :=
            hypothesis rfl
          have split :
              view (.sent dispatch :: acts) = view [.sent dispatch] ++ view acts :=
            append [.sent dispatch] acts
          rw [append, split, started, ← batched pending silent, ← rest, tell,
            List.filterMap_append, List.filterMap_cons]
          cases project (.stepStarted dispatch.token dispatch.statusLine) <;> rfl
      | noted note => exact more rfl
      | recorded result => exact more rfl

section Projections

variable {pending : Log} (silent : pending.dispatches = []) (acts : Log)

include silent

/-- The results, the errors and the requests of the acts are all told, in their
order. -/
theorem filterMap_result?_tell :
    (tell pending acts).filterMap Event.result? = (pending ++ acts).results := by
  refine filterMap_tell _ Log.results Log.results_append ?_ (fun _ => rfl) silent
    acts
  intro acts quiet
  simp [batch, Event.result?, List.filterMap_map, Function.comp_def]

theorem filterMap_message?_tell :
    (tell pending acts).filterMap Event.message? = (pending ++ acts).errors := by
  refine filterMap_tell _ Log.errors Log.errors_append ?_ (fun _ => rfl) silent
    acts
  intro acts quiet
  simp [batch, Event.message?, List.filterMap_map, Function.comp_def]

theorem filterMap_request?_tell :
    (tell pending acts).filterMap Event.request? =
      (pending ++ acts).dispatches.map fun dispatch =>
        (dispatch.token, dispatch.statusLine) := by
  refine filterMap_tell Event.request?
    (fun acts : Log =>
      acts.dispatches.map fun dispatch => (dispatch.token, dispatch.statusLine)) ?_
    ?_ (fun _ => rfl) silent acts
  · intro first second
    rw [Log.dispatches_append, List.map_append]
  · intro acts quiet
    simp [batch, Event.request?, List.filterMap_map, Function.comp_def, quiet]

end Projections

/-! ## From one request to the next -/

/-- A drive is under way: its run has got to a request, and of the acts that led
there the last ones are still to be told. -/
structure Underway (evaluator : Evaluator) (first : Run) (driving : Driving Client)
    (dispatch : Dispatch) (past pending : Log) (run : Run) : Prop where
  running : driving.engine.run = some run
  reached :
    Run.Reaches evaluator first .working (past ++ pending ++ [.sent dispatch]) run
      (.waiting dispatch)
  quiet : pending.dispatches = []
  errors : driving.engine.errors = pending.errors
  told : driving.told = past.results.length

/-- A call of the engine leads to the next request or to the end of the run, and
of its acts nothing has been told. -/
def Leads (Client : Type) (evaluator : Evaluator) (first : Run) (past : Log)
    (told : Nat) (traced : Traced (Directive × Engine)) : Prop :=
  (∃ following quiet next, traced.value.1 = .dispatch following ∧
    traced.log = quiet ++ [.sent following] ∧
    ∀ (client : Client) waiting,
      Underway evaluator first ⟨traced.value.2, client, waiting, told⟩ following
        past quiet next) ∨
  ∃ next ending reason now,
    traced.value.1 = .finished (next.report ending reason now) ∧
      traced.log.dispatches = [] ∧ traced.value.2.errors = traced.log.errors ∧
      Run.Reaches evaluator first .working (past ++ traced.log) next (.over ending)

/-- What a call of the engine brings leads to the next request or to the end of
the run. -/
theorem leads_of_brings {evaluator : Evaluator} {first run : Run} {stage : Stage}
    {past : Log} {told lastRunId : Nat} {canceling : Prop}
    {traced : Traced (Directive × Engine)}
    (reached : Run.Reaches evaluator first .working past run stage)
    (brings : Engine.Brings evaluator run stage lastRunId canceling traced)
    (sends : traced.log.SendsOnly traced.value.1.dispatch?)
    (errors : traced.value.2.errors = traced.log.errors)
    (counted : told = past.results.length) :
    Leads Client evaluator first past told traced := by
  rcases brings with ⟨next, following, kept, equal, further⟩ |
      ⟨next, ending, reason, later, kept, equal, canceled, further⟩
  · rw [equal] at sends
    rcases sends with ⟨quiet, acts, still⟩
    refine .inl ⟨following, quiet, next, by rw [equal], acts, ?_⟩
    intro client waiting
    refine ⟨?_, ?_, still, ?_, counted⟩
    · show traced.value.2.run = _
      rw [equal]
    · have whole := reached.trans further
      rw [acts, ← List.append_assoc] at whole
      exact whole
    · show traced.value.2.errors = _
      rw [errors, acts, Log.errors_append]
      exact List.append_nil _
  · rw [equal] at sends
    exact .inr ⟨next, ending, reason, later, by rw [equal], sends, errors,
      reached.trans further⟩

section Directives

variable {evaluator : Evaluator} {first : Run} {past : Log} {told : Nat}
  {traced : Traced (Directive × Engine)}

/-- A directive that leads on is not that of an answer to no request. -/
theorem Leads.known (leads : Leads Client evaluator first past told traced) :
    traced.value.1 ≠ .stale := by
  rcases leads with
    ⟨following, quiet, next, equal, rest⟩ |
    ⟨next, ending, reason, now, equal, rest⟩ <;>
    rw [equal] <;> nofun

/-- If it is a request, the drive is under way with it. -/
theorem Leads.goesOn (leads : Leads Client evaluator first past told traced)
    {dispatch : Dispatch} (came : traced.value.1 = .dispatch dispatch) :
    ∃ quiet next, traced.log = quiet ++ [.sent dispatch] ∧
      ∀ (client : Client) waiting,
        Underway evaluator first ⟨traced.value.2, client, waiting, told⟩ dispatch
          past quiet next := by
  rcases leads with
    ⟨following, quiet, next, equal, rest⟩ |
    ⟨next, ending, reason, now, equal, rest⟩
  · rcases Directive.dispatch.inj (came.symm.trans equal) with rfl
    exact ⟨quiet, next, rest⟩
  · cases came.symm.trans equal

/-- If it is a report, the run has come to its end. -/
theorem Leads.ends (leads : Leads Client evaluator first past told traced)
    {report : Report} (came : traced.value.1 = .finished report) :
    ∃ next ending reason now, report = next.report ending reason now ∧
      traced.log.dispatches = [] ∧ traced.value.2.errors = traced.log.errors ∧
      Run.Reaches evaluator first .working (past ++ traced.log) next
        (.over ending) := by
  rcases leads with
    ⟨following, quiet, next, equal, rest⟩ |
    ⟨next, ending, reason, now, equal, rest⟩
  · cases came.symm.trans equal
  · exact ⟨next, ending, reason, now,
      Directive.finished.inj (came.symm.trans equal), rest⟩

end Directives

/-- A run that is ended by a command is reported with its results, which were told
before. -/
theorem interrupt_eq (driving : Driving Client) {run : Run}
    (running : driving.engine.run = some run)
    (told : driving.told = run.results.length) (command : Command) (now : Int) :
    driving.interrupt command now =
      ⟨.ok (run.report .canceled command.reason now), [], driving.client, [],
        []⟩ := by
  have left : run.results.drop driving.told = [] := by
    rw [told]
    exact List.drop_length
  rw [Driving.interrupt, Engine.cancel_of_running running]
  show
    Driven.mk _ ((run.results.drop driving.told).map Event.stepFinished) _ _ _ = _
  rw [left]
  rfl

/-- The end of a drive tells exactly the acts that were still to be told. -/
theorem conclude_eq (driving : Driving Client) (report : Report) {past acts : Log}
    (told : driving.told = past.results.length)
    (errors : driving.engine.errors = acts.errors)
    (results : report.results = past.results ++ acts.results) :
    driving.conclude report =
      ⟨.ok report, batch acts, driving.client, [], []⟩ := by
  have left : report.results.drop driving.told = acts.results := by
    rw [results, told, List.drop_left]
  have nothing :
      report.results.drop (max driving.told report.results.length) = [] :=
    List.drop_eq_nil_of_le (Nat.le_max_right _ _)
  rw [Driving.conclude, Driving.announce, Driving.finish, Driven.after]
  simp only [left, nothing, errors]
  rw [batch, List.map_nil, List.append_nil]
  rfl

section Legs

variable {evaluator : Evaluator} {request : RunRequest} {first run : Run}
  {driving : Driving Client} {dispatch : Dispatch} {past pending : Log}

/-- The results of a run under way are those told and those still to be told. -/
theorem Underway.results (begins : Run.Begins request first)
    (underway : Underway evaluator first driving dispatch past pending run) :
    run.results = past.results ++ pending.results := by
  rw [underway.reached.results_eq begins, Log.results_append, Log.results_append]
  exact List.append_nil _

/-- What a drive under way has to tell are the acts since its last request. -/
theorem Underway.news_eq (begins : Run.Begins request first)
    (underway : Underway evaluator first driving dispatch past pending run) :
    driving.news = batch pending := by
  have results : driving.engine.results = past.results ++ pending.results := by
    rw [Engine.results, underway.running]
    exact underway.results begins
  rw [Driving.news, Driving.announce, results, underway.told, List.drop_left,
    underway.errors]
  rfl

theorem Underway.newsOf_eq (begins : Run.Begins request first)
    (underway : Underway evaluator first driving dispatch past pending run) :
    driving.newsOf dispatch =
      batch pending ++ [.stepStarted dispatch.token dispatch.statusLine] := by
  rw [Driving.newsOf, underway.news_eq begins]

theorem Underway.informed_told (begins : Run.Begins request first)
    (underway : Underway evaluator first driving dispatch past pending run) :
    driving.informed.told = run.results.length := by
  show max driving.told driving.engine.results.length = _
  rw [Engine.results, underway.running, underway.told]
  show max _ run.results.length = _
  rw [underway.results begins, List.length_append]
  omega

/-- An interrupted drive reports the run as canceled, with the reason of the
command. -/
theorem Underway.interrupt_eq (begins : Run.Begins request first)
    (underway : Underway evaluator first driving dispatch past pending run)
    (client : Client) (command : Command) (now : Int) :
    (driving.leave client).interrupt command now =
      ⟨.ok (run.report .canceled command.reason now), [], client, [], []⟩ :=
  Drive.interrupt_eq (driving.leave client) underway.running
    (underway.informed_told begins) command now

/-- After an answer nothing of what it has led to has been told. -/
theorem Underway.leg (begins : Run.Begins request first)
    (underway : Underway evaluator first driving dispatch past pending run)
    (outcome : Outcome) (now : Int) :
    Leads Client evaluator first (past ++ pending ++ [.sent dispatch])
      driving.informed.told (driving.respond evaluator dispatch outcome now) := by
  have running : driving.informed.engine.run = some run := underway.running
  have resolves : ∀ other, driving.informed.engine.run = some other →
      other.workflow.Resolves request.workflow := by
    intro other equal
    rcases Option.some.inj (running.symm.trans equal) with rfl
    exact underway.reached.resolves begins
  rcases underway.reached.awaits with ⟨inFlight, active, awaits⟩
  apply leads_of_brings underway.reached
  · exact Engine.brings_respond running awaits evaluator outcome now
  · exact Engine.sendsOnly_respond resolves evaluator dispatch.token outcome now
  · exact Engine.errors_of_respond driving.informed.engine evaluator dispatch.token
      outcome now
  · rw [underway.informed_told begins, underway.reached.results_eq begins]

/-- Feeding an answer to the engine is what the drive does with it. -/
theorem log_feed (evaluator : Evaluator) (driving : Driving Client)
    (dispatch : Dispatch) (answers : List (Outcome × Int)) (outcome : Outcome)
    (now : Int) (client : Client) (exchange : Exchange Client) :
    let answered := driving.respond evaluator dispatch outcome now
    let fed := Engine.feed evaluator answers
      (answered.value.1, (driving.proceed answered.value.2 client exchange).engine)
    (Engine.feed evaluator ((outcome, now) :: answers)
          (.dispatch dispatch, driving.engine)).log = answered.log ++ fed.log ∧
      (Engine.feed evaluator ((outcome, now) :: answers)
          (.dispatch dispatch, driving.engine)).value.1 = fed.value.1 := by
  intro answered fed
  let plain := driving.engine.respond evaluator dispatch.token outcome now
  have same : answered = Engine.keeping [] plain :=
    Engine.respond_withErrors driving.engine [] evaluator dispatch.token outcome
      now
  have kept :
      fed =
        Engine.keeping plain.errors
          (Engine.feed evaluator answers plain.value) := by
    have later :=
      Engine.feed_withErrors evaluator answers plain.value.1 plain.value.2
        plain.errors
    show Engine.feed evaluator answers (answered.value.1, answered.value.2) = _
    rw [same]
    exact later
  rw [kept, same]
  exact ⟨rfl, rfl⟩

end Legs

/-! ## Along a drive -/

/-- A report tells that a command has canceled its run. -/
structure CanceledBy (command : Command) (report : Report) : Prop where
  status : report.status = .canceled
  reason : report.canceledReason = command.reason

/-- What the report of a drive is: that of the engine, if the run has come to its
end with the answers that were taken, and otherwise that of a run which the first
command has canceled. -/
def Closes (commands : List Command) (report : Report) : Directive → Prop
  | .finished own => report = own
  | _ => ∃ command, commands.head? = some command ∧ CanceledBy command report

/-- How a drive comes to its end: with a report of these results, or no command
ever comes and the client never answers the last request. -/
def Ends (results : List StepResult) (origin : RunOrigin) (commands : List Command)
    (handed : List (Handed Client)) (directive : Directive) :
    Except DriveError Report → Prop
  | .ok report =>
      report.results = results ∧ report.origin = origin ∧
        Closes commands report directive
  | .error error =>
      error = .unanswered ∧ commands = [] ∧
        ∃ entry, handed.getLast? = some entry ∧ entry.2.answer = none ∧
          directive = .dispatch entry.1

/-- The end of a drive does not depend on what was handed out earlier. -/
theorem Ends.cons {results : List StepResult} {origin : RunOrigin}
    {commands : List Command} {handed : List (Handed Client)}
    {directive : Directive} {report : Except DriveError Report}
    (ends : Ends results origin commands handed directive report)
    (entry : Handed Client) :
    Ends results origin commands (entry :: handed) directive report := by
  cases report with
  | ok report => exact ends
  | error error =>
      rcases ends with ⟨unanswered, idle, last, latest, rest⟩
      refine ⟨unanswered, idle, last, ?_, rest⟩
      rw [List.getLast?_cons, latest]
      rfl

/-- A drive has told of acts, which lead to a directive; at most a request that
was not handed out is left, as the last act. -/
structure Spoken (first : Run) (past pending told left : Log)
    (commands : List Command) (handed : List (Handed Client))
    (directive : Directive) (driven : Driven Client) : Prop where
  rest : left = [] ∨ ∃ last, left = [.sent last]
  events : driven.events = tell pending told
  requests : handed.map Prod.fst = told.dispatches
  notes : driven.notes = (told ++ left).notes
  offered : driven.offered = []
  ends :
    Ends (past ++ told ++ left).results first.origin commands handed directive
      driven.report

section Acts

variable {first : Run} {past pending told left : Log} {commands : List Command}
  {handed : List (Handed Client)} {directive : Directive} {driven : Driven Client}

/-- What is still to be told of the acts before belongs to what is told. -/
theorem Spoken.all
    (spoken :
      Spoken first (past ++ pending) pending told left commands handed directive
        driven)
    (silent : pending.dispatches = []) :
    Spoken first past [] (pending ++ told) left commands handed directive
      (driven.after [] pending.notes) := by
  refine ⟨spoken.rest, ?_, ?_, ?_, spoken.offered, ?_⟩
  · show driven.events = _
    rw [spoken.events, tell_append [] silent]
    rfl
  · rw [spoken.requests, Log.dispatches_append, silent, List.nil_append]
  · show pending.notes ++ driven.notes = _
    rw [spoken.notes, List.append_assoc, Log.notes_append pending]
  · rw [← List.append_assoc past]
    exact spoken.ends

/-- A request is handed out, and the drive goes on from there. -/
theorem Spoken.sent {dispatch : Dispatch}
    (spoken :
      Spoken first (past ++ [.sent dispatch]) [] told left commands handed
        directive driven)
    (pending : Log) (exchange : Exchange Client) :
    Spoken first past pending (.sent dispatch :: told) left commands
      ((dispatch, exchange) :: handed) directive
      (driven.after
        (batch pending ++ [.stepStarted dispatch.token dispatch.statusLine])
        []) := by
  refine ⟨spoken.rest, ?_, ?_, ?_, spoken.offered, ?_⟩
  · show batch pending ++ [_] ++ driven.events = batch pending ++ _ :: tell [] told
    rw [spoken.events, List.append_assoc]
    rfl
  · show dispatch :: handed.map Prod.fst = dispatch :: told.dispatches
    rw [spoken.requests]
  · exact spoken.notes
  · have ends := spoken.ends.cons (dispatch, exchange)
    rw [List.append_assoc past] at ends
    exact ends

/-- A run that has come to its end tells the last of its acts. -/
theorem spoken_conclude (driving : Driving Client) (report : Report) {acts : Log}
    (told : driving.told = past.results.length)
    (errors : driving.engine.errors = acts.errors)
    (results : report.results = (past ++ acts).results)
    (origin : report.origin = first.origin) (quiet : acts.dispatches = [])
    (commands : List Command) :
    Spoken first past [] acts [] commands [] (.finished report)
      ((driving.conclude report).after [] acts.notes) := by
  rw [Log.results_append] at results
  rw [conclude_eq driving report told errors results]
  refine ⟨.inl rfl, (tell_quiet quiet).symm, quiet.symm, ?_, rfl, ?_, origin, rfl⟩
  · rw [List.append_nil]
    exact List.append_nil _
  · rw [List.append_nil, Log.results_append]
    exact results

end Acts

section Course

variable {evaluator : Evaluator} {exchanging : Exchanging Client} {now : Int}
  {request : RunRequest} {first run : Run} {driving : Driving Client}
  {dispatch : Dispatch} {past pending : Log}

/-- A waiting command ends the drive canceled, with all results told. -/
theorem Underway.ends (begins : Run.Begins request first)
    (underway : Underway evaluator first driving dispatch past pending run)
    (handed : List (Handed Client)) {command : Command} {commands : List Command}
    (earliest : commands.head? = some command) (now : Int) :
    Ends (past ++ pending ++ [.sent dispatch] : Log).results first.origin commands
      handed (.dispatch dispatch)
      (.ok (run.report .canceled command.reason now)) :=
  ⟨underway.reached.results_eq begins, underway.reached.origin_eq, command,
    earliest, rfl, rfl⟩

/-- A drive tells the acts of its run from the request on. -/
theorem Drives.spoken (begins : Run.Begins request first)
    {handed : List (Handed Client)} {driven : Driven Client}
    (drives : Drives evaluator exchanging now driving dispatch handed driven)
    (underway : Underway evaluator first driving dispatch past pending run) :
    ∃ told left,
      .sent dispatch ::
            (Engine.feed evaluator (answersOf now handed)
              (.dispatch dispatch, driving.engine)).log = told ++ left ∧
        Spoken first (past ++ pending) pending told left
          (commandsOf driving.waiting handed) handed
          (Engine.feed evaluator (answersOf now handed)
            (.dispatch dispatch, driving.engine)).value.1 driven := by
  -- With each answer that is taken the run goes on, and what it has done since is
  -- pending.
  induction drives generalizing past pending run with
  | @preempted driving dispatch command others waits =>
      have interrupted : driving.informed.interrupt command now = _ :=
        underway.interrupt_eq begins driving.client command now
      rw [interrupted, underway.news_eq begins, waits]
      refine ⟨[], [.sent dispatch], rfl, .inr ⟨dispatch, rfl⟩, ?_, rfl, rfl, rfl,
        ?_⟩
      · exact List.append_nil _
      · rw [List.append_nil]
        exact underway.ends begins [] rfl now
  | @interrupted driving dispatch command others free untaken arrives =>
      have earliest :
          (commandsOf driving.waiting
              [(dispatch, exchanging driving.client dispatch)]).head? =
            some command := by
        simp [commandsOf, free, arrives]
      rw [underway.interrupt_eq begins, underway.newsOf_eq begins,
        answersOf_untaken untaken]
      refine ⟨[.sent dispatch], [], rfl,
        Spoken.sent ⟨.inl rfl, rfl, rfl, rfl, rfl, ?_⟩ _ _⟩
      rw [List.append_nil, List.append_nil]
      exact underway.ends begins [] earliest now
  | @unanswered driving dispatch free untaken silent =>
      have idle :
          commandsOf driving.waiting
              [(dispatch, exchanging driving.client dispatch)] = [] := by
        simp [commandsOf, free, silent]
      have unanswered : (exchanging driving.client dispatch).answer = none := by
        rcases Exchange.taken?_eq_none.mp untaken with unanswered | ⟨late, some⟩
        · exact unanswered
        · exact (some silent).elim
      rw [underway.newsOf_eq begins, answersOf_untaken untaken]
      refine ⟨[.sent dispatch], [], rfl, .inl rfl, ?_, rfl, rfl, rfl, rfl, idle, _,
        rfl, unanswered, rfl⟩
      exact List.append_nil _
  | @lost driving dispatch outcome client free takes answered =>
      exact ((underway.leg begins outcome now).known answered).elim
  | @concluded driving dispatch outcome client report free takes answered =>
      rcases (underway.leg begins outcome now).ends answered with
        ⟨next, ending, reason, later, rfl, quiet, errors, reached⟩
      let exchange := exchanging driving.client dispatch
      have told : driving.informed.told =
          (past ++ pending ++ [.sent dispatch] : Log).results.length := by
        rw [underway.informed_told begins, underway.reached.results_eq begins]
      have spoken :
          Spoken first (past ++ pending ++ [.sent dispatch]) [] _ [] _ [] _ _ :=
        spoken_conclude
          (driving.proceed (driving.respond evaluator dispatch outcome now).value.2
            client exchange) (next.report ending reason later) told errors
          (reached.results_eq begins) reached.origin_eq quiet
          (commandsOf driving.waiting [(dispatch, exchange)])
      have given : answersOf now [(dispatch, exchange)] = [(outcome, now)] :=
        answersOf_taken takes now dispatch []
      have fed :=
        log_feed evaluator driving dispatch [] outcome now client exchange
      have directive :
          (Engine.feed evaluator [(outcome, now)]
              (.dispatch dispatch, driving.engine)).value.1 =
            .finished (next.report ending reason later) :=
        fed.2.trans answered
      rw [given, fed.1.trans (List.append_nil _), directive,
        underway.newsOf_eq begins]
      exact ⟨_, [], (List.append_nil _).symm, spoken.sent pending exchange⟩
  | @goesOn driving dispatch following outcome client handed driven free takes
      answered later hypothesis =>
      rcases (underway.leg begins outcome now).goesOn answered with
        ⟨quiet, next, acts, further⟩
      let exchange := exchanging driving.client dispatch
      have onward := further client exchange.arriving
      rcases hypothesis onward with ⟨told, left, acting, spoken⟩
      have fed :=
        log_feed evaluator driving dispatch (answersOf now handed) outcome now
          client exchange
      rw [answersOf_taken takes, fed.1, fed.2, acts, answered, free]
      refine ⟨.sent dispatch :: (quiet ++ told), left, ?_, ?_⟩
      · rw [List.append_assoc, List.singleton_append, acting, ← List.append_assoc]
        rfl
      · have notes :
            (driving.respond evaluator dispatch outcome now).notes =
              quiet.notes := by
          rw [Traced.notes, acts, Log.notes_append]
          exact List.append_nil _
        rw [underway.newsOf_eq begins, notes]
        exact (spoken.all onward.quiet).sent pending exchange

end Course

end RequestFlow.Drive
