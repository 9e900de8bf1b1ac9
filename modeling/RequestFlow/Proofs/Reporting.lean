import RequestFlow.Proofs.Telling

/-!
# A drive and its record

A drive that is started tells its run from the beginning to the end.  A client
that keeps a record of the requests it was handed is driven alike, and from the
record the run can be played again: with the answers that were taken.  Main
statement: whatever the client does and whenever commands arrive, every result,
every error and every request that is handed out is told once and in order,
between the beginning of the run and its end, and the history is offered one entry
for a declared workflow and none for another run; a run that is not started is
told by one error.
-/

namespace RequestFlow.Drive

open Condition

variable {Client : Type}

/-! ## Requests of a run -/

/-- Where the dispatches of a log are split, the log itself can be split at the
same dispatch. -/
theorem exists_of_dispatches {log : Log} {before after : List Dispatch}
    {dispatch : Dispatch} (sent : log.dispatches = before ++ dispatch :: after) :
    ∃ first rest : Log, log = first ++ .sent dispatch :: rest ∧
      first.dispatches = before ∧ rest.dispatches = after := by
  rcases List.filterMap_eq_append_iff.mp sent with
    ⟨first, others, rfl, left, right⟩
  rcases List.filterMap_eq_cons_iff.mp right with
    ⟨quiet, act, rest, rfl, silent, given, last⟩
  refine ⟨first ++ quiet, rest, ?_, ?_, last⟩
  · cases act with
    | sent other =>
        rcases Option.some.inj given with rfl
        exact (List.append_assoc first quiet _).symm
    | noted note => cases given
    | recorded result => cases given
  · have none : Log.dispatches quiet = [] := List.filterMap_eq_nil_iff.mpr silent
    rw [Log.dispatches_append, none, List.append_nil]
    exact left

/-! ## The beginning and the end -/

/-- What is told of the end of a run. -/
def completion : Except DriveError Report → List Event
  | .ok report => [.runCompleted report]
  | .error _ => []

/-- What the history is offered at the end of a run. -/
def offering (request : RunRequest) (definition : String) :
    Except DriveError Report → List History.Entry
  | .ok report =>
      match report.origin with
      | .workflow => [historyEntry request.workflow definition report]
      | .adHoc => []
  | .error _ => []

/-- Completing a drive that has offered nothing yet adds the end of the run to its
events and offers the report. -/
theorem Driven.complete_eq {driven : Driven Client} (offered : driven.offered = [])
    (request : RunRequest) (definition : String) :
    driven.complete request definition =
      ⟨driven.report, driven.events ++ completion driven.report, driven.client,
        offering request definition driven.report, driven.notes⟩ := by
  rcases driven with ⟨report, events, client, kept, notes⟩
  rcases offered with rfl
  cases report with
  | ok report => rfl
  | error error =>
      show Driven.mk _ events _ _ _ = Driven.mk _ (events ++ []) _ _ _
      rw [List.append_nil]
      rfl

/-- How a drive tells the beginning of its run. -/
def opening (request : RunRequest) : List Event :=
  [.runStarted 1 request.workflow.name request.workflow.steps.length]

section Runs

variable {evaluator : Evaluator} {exchanging : Exchanging Client} {client : Client}
  {waiting : List Command} {request : RunRequest} {definition : String} {now : Int}
  {workflow : ResolvedWorkflow}

/-- The start of a run leads to its first request or to its end. -/
theorem leads_start (Client : Type)
    (resolved : request.workflow.resolve request.document = .ok workflow)
    (evaluator : Evaluator) (now : Int) :
    ∃ traced : Traced (Directive × Engine),
      Engine.idle.start evaluator request now =
          ⟨traced.log, .ok traced.value.1, traced.value.2⟩ ∧
        traced.value.2.lastRunId = 1 ∧
        Leads Client evaluator (Engine.idle.beginRun request workflow now) [] 0
          traced := by
  have free : Engine.idle.run = none := rfl
  rcases Engine.brings_start free resolved evaluator now with
    ⟨traced, started, brings⟩
  refine ⟨traced, started, brings.lastRunId_eq,
    leads_of_brings .refl brings ?_ ?_ rfl⟩
  · have sends (directive : Directive) :=
      @Engine.sendsOnly_start _ _ _ free resolved evaluator now directive
    rw [started] at sends
    exact sends _ rfl
  · have raised := Engine.errors_of_start free resolved evaluator now
    rw [started] at raised
    exact raised

/-- A workflow that cannot be resolved is told as one error, and nothing is
sent. -/
theorem run_of_unresolved {error : ResolutionError}
    (unresolved : request.workflow.resolve request.document = .error error) :
    run evaluator exchanging client waiting request definition now =
      ⟨.error (.notStarted (.unresolved error)), [.error error.message], client,
        [], []⟩ := by
  rw [run, Engine.start_of_unresolved rfl unresolved]
  rfl

/-- A run whose start asks for a request is driven by the loop from that request
on. -/
theorem run_of_dispatch {log : Log} {dispatch : Dispatch} {engine : Engine}
    (number : engine.lastRunId = 1)
    (started :
      Engine.idle.start evaluator request now =
        ⟨log, .ok (.dispatch dispatch), engine⟩) :
    run evaluator exchanging client waiting request definition now =
      Driven.complete request definition
        ((loop evaluator exchanging now ⟨engine, client, waiting, 0⟩
          dispatch).after (opening request) log.notes) := by
  rw [run, started, opening, ← number]
  rfl

/-- A run that ends at its start is reported without a request. -/
theorem run_of_finished {log : Log} {report : Report} {engine : Engine}
    (number : engine.lastRunId = 1)
    (started :
      Engine.idle.start evaluator request now =
        ⟨log, .ok (.finished report), engine⟩) :
    run evaluator exchanging client waiting request definition now =
      Driven.complete request definition
        (((⟨engine, client, waiting, 0⟩ : Driving Client).conclude report).after
          (opening request) log.notes) := by
  rw [run, started, opening, ← number]
  rfl

/-- A play is its start, and behind it what the answers make of the engine. -/
theorem play_of_started {traced : Traced (Directive × Engine)}
    (started :
      Engine.idle.start evaluator request now =
        ⟨traced.log, .ok traced.value.1, traced.value.2⟩)
    (answers : List (Outcome × Int)) :
    let fed := Engine.feed evaluator answers traced.value
    Engine.idle.play evaluator request now answers =
      ⟨traced.log ++ fed.log, .ok fed.value.1, fed.value.2⟩ := by
  rw [Engine.play, started]
  simp only [bind, Traced.andThen, pure, Traced.of, List.append_nil]

theorem Driven.report_complete (driven : Driven Client) (request : RunRequest)
    (definition : String) :
    (driven.complete request definition).report = driven.report := by
  rcases driven with ⟨report, events, client, kept, notes⟩
  cases report <;> rfl

/-- It does not matter whether the requests handed out are kept before or after
completing. -/
theorem Driven.complete_keeping (driven : Driven Client)
    (handed : List (Handed Client)) (request : RunRequest) (definition : String) :
    (driven.keeping handed).complete request definition =
      (driven.complete request definition).keeping handed := by
  rcases driven with ⟨report, events, client, kept, notes⟩
  cases report <;> rfl

/-- How a run is driven from its start: without a request it comes to its end, or
the drive goes on from the first one. -/
inductive Opens (evaluator : Evaluator) (exchanging : Exchanging Client)
    (now : Int) (first : Run) (client : Client) (waiting : List Command)
    (traced : Traced (Directive × Engine)) :
    List (Handed Client) → Driven Client → Prop where
  | atOnce {next : Run} {ending : RunEnd} {reason : Option String} {later : Int}
      (ended : traced.value.1 = .finished (next.report ending reason later))
      (quiet : traced.log.dispatches = [])
      (errors : traced.value.2.errors = traced.log.errors)
      (reached :
        Run.Reaches evaluator first .working traced.log next (.over ending)) :
      Opens evaluator exchanging now first client waiting traced []
        (Driving.conclude ⟨traced.value.2, client, waiting, 0⟩
          (next.report ending reason later))
  | asking {dispatch : Dispatch} {quiet : Log} {next : Run}
      {handed : List (Handed Client)} {driven : Driven Client}
      (asks : traced.value.1 = .dispatch dispatch)
      (acts : traced.log = quiet ++ [.sent dispatch])
      (underway :
        Underway evaluator first ⟨traced.value.2, client, waiting, 0⟩ dispatch []
          quiet next)
      (drives :
        Drives evaluator exchanging now ⟨traced.value.2, client, waiting, 0⟩
          dispatch handed driven) :
      Opens evaluator exchanging now first client waiting traced handed driven

/-- A run that can be resolved is driven from its start, and a record of it
changes nothing else. -/
theorem opens_run
    (resolved : request.workflow.resolve request.document = .ok workflow)
    (evaluator : Evaluator) (exchanging : Exchanging Client) (client : Client)
    (waiting : List Command) (definition : String) (now : Int) :
    ∃ (traced : Traced (Directive × Engine)) (handed : List (Handed Client))
        (driven : Driven Client),
      Engine.idle.start evaluator request now =
          ⟨traced.log, .ok traced.value.1, traced.value.2⟩ ∧
        run evaluator exchanging client waiting request definition now =
          Driven.complete request definition
            (driven.after (opening request) traced.notes) ∧
        run evaluator exchanging.recorded (client, []) waiting request definition
            now =
          (run evaluator exchanging client waiting request definition now).keeping
            handed ∧
        Opens evaluator exchanging now (Engine.idle.beginRun request workflow now)
          client waiting traced handed driven := by
  rcases leads_start Client resolved evaluator now with
    ⟨⟨log, directive, engine⟩, started, number, leads⟩
  let driving : Driving Client := ⟨engine, client, waiting, 0⟩
  cases directive with
  | stale => exact (leads.known rfl).elim
  | finished report =>
      rcases leads.ends rfl with
        ⟨next, ending, reason, later, rfl, quiet, errors, reached⟩
      refine ⟨_, [], _, started, run_of_finished number started, ?_,
        .atOnce rfl quiet errors reached⟩
      rw [run_of_finished number started, run_of_finished number started,
        ← Driven.complete_keeping]
      rfl
  | dispatch dispatch =>
      rcases leads.goesOn rfl with ⟨quiet, next, acts, underway⟩
      rcases exists_drives evaluator exchanging now driving dispatch with
        ⟨handed, drives⟩
      have kept :
          loop evaluator exchanging.recorded now ⟨engine, (client, []), waiting, 0⟩
              dispatch =
            (loop evaluator exchanging now driving dispatch).keeping handed :=
        drives.loop_recorded []
      refine ⟨_, handed, _, started, run_of_dispatch number started, ?_,
        .asking rfl acts (underway client waiting) drives⟩
      rw [run_of_dispatch number started, run_of_dispatch number started, kept,
        ← Driven.complete_keeping]
      rfl

/-- A drive tells the acts of its run, which is played with the answers that were
taken. -/
theorem Opens.spoken {exchanging : Exchanging Client} {first : Run}
    {traced : Traced (Directive × Engine)} {handed : List (Handed Client)}
    {driven : Driven Client} (begins : Run.Begins request first)
    (started :
      Engine.idle.start evaluator request now =
        ⟨traced.log, .ok traced.value.1, traced.value.2⟩)
    (opens :
      Opens evaluator exchanging now first client waiting traced handed driven) :
    let played := Engine.idle.play evaluator request now (answersOf now handed)
    ∃ told left directive,
      played.log = told ++ left ∧ played.value.1 = .ok directive ∧
        Spoken first [] [] told left (commandsOf waiting handed) handed directive
          (driven.after [] traced.notes) := by
  rw [play_of_started started]
  cases opens with
  | @atOnce next ending reason later ended quiet errors reached =>
      have fed :
          Engine.feed evaluator (answersOf now ([] : List (Handed Client)))
              traced.value = pure traced.value :=
        rfl
      rw [fed]
      refine ⟨traced.log, [], _, rfl, congrArg Except.ok ended, ?_⟩
      exact spoken_conclude ⟨traced.value.2, client, waiting, 0⟩ _ rfl errors
        (reached.results_eq begins) reached.origin_eq quiet (commandsOf waiting [])
  | @asking dispatch quiet next handed driven asks acts underway drives =>
      rcases drives.spoken begins underway with ⟨told, left, fed, spoken⟩
      have value : traced.value = (.dispatch dispatch, traced.value.2) :=
        Prod.ext asks rfl
      have notes : traced.notes = quiet.notes := by
        rw [Traced.notes, acts, Log.notes_append]
        exact List.append_nil _
      rw [value]
      refine ⟨quiet ++ told, left, _, ?_, rfl, ?_⟩
      · show traced.log ++ (Engine.feed evaluator (answersOf now handed) _).log = _
        rw [acts, List.append_assoc, List.singleton_append, fed, List.append_assoc]
      · rw [notes]
        exact spoken.all underway.quiet

end Runs

/-! ## The record -/

/-- A drive tells its run: what it has told, reported and offered to the history
is what the acts of the run are, of which the requests that were handed out are
the dispatches. -/
structure Tells (evaluator : Evaluator) (request : RunRequest)
    (definition : String) (acts : Log) (commands : List Command)
    (handed : List (Handed Client)) (directive : Directive)
    (driven : Driven Client) : Prop where
  frame :
    ∃ amid, driven.events = opening request ++ amid ++ completion driven.report ∧
      ∀ event ∈ amid, event.IsAmid
  results : driven.events.filterMap Event.result? = acts.results
  requests : driven.events.filterMap Event.request? =
    handed.map fun entry => (entry.1.token, entry.1.statusLine)
  tokens : handed.map (fun entry => entry.1.token) =
    (List.range handed.length).map fun index => ⟨1, index + 1⟩
  /-- At most the last request of the run was not handed out. -/
  sent : acts.dispatches = handed.map Prod.fst ∨
    ∃ last, acts.dispatches = handed.map Prod.fst ++ [last]
  /-- What was recorded and raised before a request was told before it. -/
  before :
    ∀ earlier entry later, handed = earlier ++ entry :: later →
      ∃ (first rest : Log) (told left : List Event),
        acts = first ++ .sent entry.1 :: rest ∧
          first.dispatches = earlier.map Prod.fst ∧
          driven.events =
            told ++ .stepStarted entry.1.token entry.1.statusLine :: left ∧
          told.filterMap Event.result? = first.results ∧
          told.filterMap Event.message? = first.errors
  errors : driven.events.filterMap Event.message? =
    (acts.results.filter StepResult.isFaulty).map StepResult.errorLine
  faults :
    (driven.events.filterMap Event.message?).length =
      acts.queries.countP (Query.fails evaluator) +
        acts.results.countP StepResult.isUnbound
  notes : driven.notes = acts.notes
  ends : Ends acts.results request.origin commands handed directive driven.report
  offered : driven.offered = offering request definition driven.report

section Frames

variable {Item : Type} {project : Event → Option Item}

/-- The opening of a run has no part in what is read off the other events. -/
theorem filterMap_opening
    (started : ∀ number name steps, project (.runStarted number name steps) = none)
    (request : RunRequest) (events : List Event) :
    (opening request ++ events).filterMap project = events.filterMap project := by
  rw [opening, List.singleton_append, List.filterMap_cons, started]

/-- Nor has its completion. -/
theorem filterMap_completion
    (completed : ∀ report, project (.runCompleted report) = none)
    (events : List Event) (report : Except DriveError Report) :
    (events ++ completion report).filterMap project =
      events.filterMap project := by
  have last : (completion report).filterMap project = [] := by
    cases report with
    | ok report => simp [completion, completed]
    | error error => rfl
  rw [List.filterMap_append, last, List.append_nil]

end Frames

section Records

variable {evaluator : Evaluator} {request : RunRequest} {first run : Run}
  {stage : Stage} {told left : Log} {commands : List Command}
  {handed : List (Handed Client)} {directive : Directive} {driven : Driven Client}

/-- Whatever is read off the events between opening and completion is read off the
acts that were told. -/
theorem Spoken.filterMap_events
    (spoken : Spoken first [] [] told left commands handed directive driven)
    {Item : Type} {project : Event → Option Item}
    (started : ∀ number name steps, project (.runStarted number name steps) = none)
    (completed : ∀ report, project (.runCompleted report) = none)
    (request : RunRequest) :
    (opening request ++ driven.events ++ completion driven.report).filterMap
        project =
      (tell [] told).filterMap project := by
  rw [filterMap_completion completed, filterMap_opening started, spoken.events]

/-- Of the acts only a last dispatch can be left untold, so the results and the
errors are all told. -/
theorem Spoken.left_quiet
    (spoken : Spoken first [] [] told left commands handed directive driven) :
    (told ++ left).results = told.results ∧
      (told ++ left).errors = told.errors := by
  rw [Log.results_append, Log.errors_append]
  rcases spoken.rest with rfl | ⟨last, rfl⟩
  · exact ⟨List.append_nil _, List.append_nil _⟩
  · exact ⟨List.append_nil _, List.append_nil _⟩

/-- The requests handed out are numbered from 1 on, in the first run. -/
theorem Spoken.tokens (begins : Run.Begins request first) (number : first.id = 1)
    (reached : Run.Reaches evaluator first .working (told ++ left) run stage)
    (spoken : Spoken first [] [] told left commands handed directive driven) :
    handed.map (fun entry => entry.1.token) =
      (List.range handed.length).map fun index => ⟨1, index + 1⟩ := by
  have whole : (told ++ left).dispatches.map Dispatch.token =
      (List.range run.sequence).map fun index => ⟨1, index + 1⟩ := by
    rw [reached.tokens begins, Run.tokens, reached.id_eq, number]
  rw [Log.dispatches_append, ← spoken.requests, List.map_append, List.map_map]
    at whole
  have length := congrArg List.length whole
  simp only [List.length_append, List.length_map, List.length_range] at length
  have given := congrArg (List.take handed.length) whole
  rw [List.take_left' (List.length_map _), ← List.map_take, List.take_range,
    Nat.min_eq_left (by omega)] at given
  exact given

/-- Where a request is told, exactly the results and errors that the run had
recorded by then have been told. -/
theorem Spoken.before
    (spoken : Spoken first [] [] told left commands handed directive driven)
    (request : RunRequest) {earlier later : List (Handed Client)}
    {entry : Handed Client} (split : handed = earlier ++ entry :: later) :
    ∃ (first rest : Log) (before after : List Event),
      told ++ left = first ++ .sent entry.1 :: rest ∧
        first.dispatches = earlier.map Prod.fst ∧
        opening request ++ driven.events ++ completion driven.report =
          before ++ .stepStarted entry.1.token entry.1.statusLine :: after ∧
        before.filterMap Event.result? = first.results ∧
        before.filterMap Event.message? = first.errors := by
  have sent :
      told.dispatches = earlier.map Prod.fst ++ entry.1 :: later.map Prod.fst := by
    rw [← spoken.requests, split, List.map_append, List.map_cons]
  rcases exists_of_dispatches sent with ⟨first, rest, rfl, given, others⟩
  refine ⟨first, rest ++ left, opening request ++ tell [] first,
    tell [] rest ++ completion driven.report, ?_, given, ?_, ?_, ?_⟩
  · exact List.append_assoc first (_ :: rest) left
  · rw [spoken.events, tell_request]
    simp only [List.append_assoc, List.cons_append]
  · rw [filterMap_opening fun _ _ _ => rfl]
    exact filterMap_result?_tell rfl first
  · rw [filterMap_opening fun _ _ _ => rfl]
    exact filterMap_message?_tell rfl first

/-- A drive that tells the acts of its run tells its run. -/
theorem Spoken.tells (begins : Run.Begins request first) (number : first.id = 1)
    (reached : Run.Reaches evaluator first .working (told ++ left) run stage)
    (spoken : Spoken first [] [] told left commands handed directive driven)
    (definition : String) :
    Tells evaluator request definition (told ++ left) commands handed directive
      (Driven.complete request definition
        (driven.after (opening request) [])) := by
  have offered : (driven.after (opening request) []).offered = [] := spoken.offered
  have surfaces := reached.surfaces begins
  have messages :
      (opening request ++ driven.events ++ completion driven.report).filterMap
          Event.message? = (told ++ left).errors := by
    rw [spoken.filterMap_events (fun _ _ _ => rfl) (fun _ => rfl),
      filterMap_message?_tell rfl, spoken.left_quiet.2]
    rfl
  rw [Driven.complete_eq offered]
  constructor
  case frame =>
    refine ⟨driven.events, rfl, ?_⟩
    intro event member
    rw [spoken.events] at member
    exact isAmid_of_mem_tell _ _ member
  case results =>
    refine (spoken.filterMap_events (fun _ _ _ => rfl) (fun _ => rfl)
      request).trans ?_
    rw [filterMap_result?_tell rfl, spoken.left_quiet.1]
    rfl
  case requests =>
    refine (spoken.filterMap_events (fun _ _ _ => rfl) (fun _ => rfl)
      request).trans ?_
    rw [filterMap_request?_tell rfl, List.nil_append, ← spoken.requests,
      List.map_map]
    rfl
  case tokens => exact spoken.tokens begins number reached
  case sent =>
    rw [spoken.requests]
    rcases spoken.rest with rfl | ⟨last, rfl⟩
    · rw [List.append_nil]
      exact .inl rfl
    · exact .inr ⟨last, Log.dispatches_append told _⟩
  case before =>
    intro earlier entry later split
    exact spoken.before request split
  case errors => exact messages.trans surfaces.lines
  case faults =>
    rw [← surfaces.count]
    exact congrArg List.length messages
  case notes => exact spoken.notes
  case ends =>
    have ends := spoken.ends
    rw [begins.origin] at ends
    exact ends
  case offered => rfl

end Records

end RequestFlow.Drive
