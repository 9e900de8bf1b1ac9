import RequestFlow.History.Entry
import RequestFlow.Run.Work

/-!
# Driving a run

A run is driven by a client that answers requests and by commands to cancel it.
Commands wait in a queue.  They are looked at before a request is sent, and while
the client has it: then either the answer is taken first, or a waiting command
ends the run.  Which of the two it is, what arrives meanwhile and how the client
changes is the behaviour of the exchange, which is a parameter here.  What happens
is told in events.
-/

namespace RequestFlow.Drive

open Condition

/-- A command to cancel, with its reason. -/
structure Command where
  reason : Option String
  deriving DecidableEq

/-- What happens in a run. -/
inductive Event where
  | runStarted (runId : Nat) (workflow : String) (totalSteps : Nat)
  /-- A request is about to be sent. -/
  | stepStarted (token : Token) (statusLine : String)
  | stepFinished (result : StepResult)
  | error (message : String)
  | runCompleted (report : Report)
  deriving DecidableEq

/-- How an exchange goes. -/
structure Exchange (Client : Type) where
  /-- The commands that arrive while the client has the request, before its answer
  is there. -/
  arriving : List Command
  /-- The client, if the exchange is interrupted. -/
  interrupted : Client
  /-- The answer, if there will be one, and the client after it. -/
  answer : Option (Outcome × Client)
  /-- The answer is taken even if commands are waiting. -/
  answerFirst : Bool

/-- A client: how each exchange with it goes. -/
abbrev Exchanging (Client : Type) := Client → Dispatch → Exchange Client

/-- Why a run that was started has no report. -/
inductive DriveError where
  | notStarted (error : StartError)
  /-- The engine lost track of the request under way. -/
  | stalled
  /-- The client never answers and no command arrives. -/
  | unanswered
  deriving DecidableEq

/-- The wording of an error. -/
def DriveError.message : DriveError → String
  | notStarted _ => "workflow run could not start"
  | stalled => "workflow run stalled without an in-flight request"
  | unanswered => "workflow run is waiting for its client"

/-- What has come of a drive. -/
structure Driven (Client : Type) where
  report : Except DriveError Report
  /-- The events in order. -/
  events : List Event
  client : Client
  /-- What is offered to the history. -/
  offered : List History.Entry
  /-- The conditions evaluated and the errors raised. -/
  notes : List Note

/-- A run that is being driven. -/
structure Driving (Client : Type) where
  engine : Engine
  client : Client
  waiting : List Command
  told : Nat

namespace Driven

/-- Puts what happened before in front of what happened later. -/
def after {Client : Type} (events : List Event) (notes : List Note)
    (driven : Driven Client) : Driven Client :=
  { driven with events := events ++ driven.events, notes := notes ++ driven.notes }

/-- A drive that ends without a report. -/
def failed {Client : Type} (client : Client) (error : DriveError) :
    Driven Client :=
  ⟨.error error, [], client, [], []⟩

end Driven

namespace Driving

/-- Tells the errors raised and the results recorded since the last time. -/
def announce {Client : Type} (driving : Driving Client)
    (results : List StepResult) : List Event × Driving Client :=
  (driving.engine.errors.map Event.error ++
      (results.drop driving.told).map Event.stepFinished,
    { driving with
      engine := driving.engine.drainErrors.2
      told := max driving.told results.length })

/-- Ends with a report and tells what it holds beyond what was told. -/
def finish {Client : Type} (driving : Driving Client) (report : Report) :
    Driven Client :=
  ⟨.ok report, (report.results.drop driving.told).map Event.stepFinished,
    driving.client, [], []⟩

/-- Ends the run for a command. -/
def interrupt {Client : Type} (driving : Driving Client) (command : Command)
    (now : Int) : Driven Client :=
  match (driving.engine.cancel command.reason now).1 with
  | some report => driving.finish report
  | none => .failed driving.client .stalled

/-- Ends with a finished run. -/
def conclude {Client : Type} (driving : Driving Client) (report : Report) :
    Driven Client :=
  let announced := driving.announce report.results
  (announced.2.finish report).after announced.1 []

end Driving

/-- Drives a run that wants a request sent to its end. -/
def loop {Client : Type} (evaluator : Evaluator) (exchanging : Exchanging Client)
    (now : Int) (driving : Driving Client) (dispatch : Dispatch) : Driven Client :=
  let announced := driving.announce driving.engine.results
  let current := announced.2
  match current.waiting with
  | command :: _ => (current.interrupt command now).after announced.1 []
  | [] =>
      let events :=
        announced.1 ++ [.stepStarted dispatch.token dispatch.statusLine]
      let exchange := exchanging current.client dispatch
      let left : Driving Client := { current with client := exchange.interrupted }
      match exchange.answer, exchange.arriving with
      | none, [] => (Driven.failed left.client .unanswered).after events []
      | none, command :: _ => (left.interrupt command now).after events []
      | some (outcome, client), arriving =>
          match if exchange.answerFirst then none else arriving.head? with
          | some command => (left.interrupt command now).after events []
          | none =>
              let answered :=
                current.engine.respond evaluator dispatch.token outcome now
              let next : Driving Client :=
                ⟨answered.value.2, client, arriving, current.told⟩
              match answer : answered.value.1 with
              | .dispatch following =>
                  have := Engine.work_of_respond answer
                  (loop evaluator exchanging now next following).after events
                    answered.notes
              | .finished report =>
                  (next.conclude report).after events answered.notes
              | .stale =>
                  (Driven.failed client .stalled).after events answered.notes
termination_by driving.engine.work
decreasing_by exact this

/-- What the history keeps of a run. -/
def historyEntry (workflow : WorkflowDefinition) (definition : String)
    (report : Report) : History.Entry :=
  { name := workflow.name
    summary := report.summary
    duration := report.duration
    definition := definition
    tags := workflow.tags
    description := workflow.description }

/-- Tells the end of a run, and offers a declared workflow's run to the history. -/
def Driven.complete {Client : Type} (request : RunRequest) (definition : String)
    (driven : Driven Client) : Driven Client :=
  match driven.report with
  | .error _ => driven
  | .ok report =>
      { driven with
        events := driven.events ++ [.runCompleted report]
        offered :=
          match report.origin with
          | .workflow => [historyEntry request.workflow definition report]
          | .adHoc => [] }

/-- Starts a run and drives it to its end. -/
def run {Client : Type} (evaluator : Evaluator) (exchanging : Exchanging Client)
    (client : Client) (waiting : List Command) (request : RunRequest)
    (definition : String) (now : Int) : Driven Client :=
  let started := Engine.idle.start evaluator request now
  let driving : Driving Client := ⟨started.value.2, client, waiting, 0⟩
  let events : List Event :=
    [.runStarted driving.engine.lastRunId request.workflow.name
      request.workflow.steps.length]
  match started.value.1 with
  | .error error =>
      (Driven.failed client (.notStarted error)).after [.error error.message]
        started.notes
  | .ok (.dispatch dispatch) =>
      Driven.complete request definition
        ((loop evaluator exchanging now driving dispatch).after events
          started.notes)
  | .ok (.finished report) =>
      Driven.complete request definition
        ((driving.conclude report).after events started.notes)
  | .ok .stale => (Driven.failed client .stalled).after events started.notes

end RequestFlow.Drive
