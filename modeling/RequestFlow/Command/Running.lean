import RequestFlow.Client.Network
import RequestFlow.Command.Invocation
import RequestFlow.Command.Response
import RequestFlow.Condition.Evaluation
import RequestFlow.Document.Writing
import RequestFlow.History.Store
import RequestFlow.Run.Writing

/-!
# Running from the command line

The ambient variables of a run are, from the lowest layer to the highest one: the
variables of the document, those of the process, those of a file, and those given
as arguments.  What the run offers to the history is kept as far as that is
possible, and a run is not held up where it is not.
-/

namespace RequestFlow.Command

/-- The run of a target that a document declares. -/
def Target.find (document : Document) : Target → Except Failure RunRequest
  | firstWorkflow =>
      match document.workflows with
      | [] => .error .noWorkflow
      | first :: _ =>
          (RunRequest.ofWorkflow document first.name).mapError .undeclared
  | workflow name => (RunRequest.ofWorkflow document name).mapError .undeclared
  | request name => (RunRequest.ofRequest document name).mapError .undeclared

/-- The variables of a file. -/
def fileVariables (disk : Disk) (path : String) :
    Except Failure (Dictionary String) :=
  match (disk.read path).toOption.bind Text.Utf8.decode? with
  | none => .error (.variablesUnread path)
  | some text =>
      match Document.Yaml.readDictionary? text.toList with
      | none => .error (.variablesUnparsed path)
      | some bindings => .ok bindings

/-- The variables of the file that a wish names, if it names one. -/
def RunWish.fileScope (wish : RunWish) (disk : Disk) : Except Failure Scope :=
  match wish.variablesFile with
  | none => .ok .empty
  | some path => fileVariables disk path

/-- The ambient variables of a wish. -/
def RunWish.ambient (wish : RunWish) (surroundings : Surroundings) :
    Except Failure Scope :=
  (wish.fileScope surroundings.disk).map fun fileScope =>
    ((Scope.ofEnvironment surroundings.bindings).overlay fileScope).overlay
      (.ofList wish.assignments)

/-- The run that is wished for. -/
def RunWish.find (wish : RunWish) (surroundings : Surroundings) :
    Except Failure RunRequest :=
  match Document.load surroundings.disk wish.document with
  | .error error => .error (.document error)
  | .ok document =>
      match wish.target.find document with
      | .error failure => .error failure
      | .ok request => (wish.ambient surroundings).map request.withAmbient

/-- What is said of a request for which no connection can be made. -/
def connectionDetail : String := "builder error"

/-- A client that makes no connections. -/
def exchanging : Drive.Exchanging Unit :=
  fun _ dispatch =>
    { arriving := []
      interrupted := ()
      answer := some (Client.unconnected dispatch.request connectionDetail, ())
      answerFirst := true }

/-- Drives a run. -/
def drive (request : RunRequest) (now : Int) : Drive.Driven Unit :=
  Drive.run Condition.evaluator exchanging () [] request request.workflow.text now

/-- The line of an event, if it has one; steps are passed over where data is
wanted. -/
def eventLine? (asData : Bool) : Drive.Event → Option String
  | .stepStarted _ line => if asData then none else some line
  | .error message => some s!"error: {message}"
  | _ => none

/-- The code of a run. -/
def statusCode : RunStatus → Nat
  | .succeeded => successCode
  | .failed => failureCode
  | .canceled => canceledCode

/-- What is put out of a report. -/
def reportOutput (asData : Bool) (report : Report) : String :=
  if asData then ofLines [report.tree.pretty]
  else report.text ++ ofLines [report.summary]

/-- Keeps runs in the history. -/
def keep (surroundings : Surroundings) (entries : List History.Entry) : Disk :=
  match History.Store.load? surroundings.disk
      (History.usualPath surroundings.bindings) History.usualLimit with
  | none => surroundings.disk
  | some store =>
      (entries.foldl
        (fun (kept : History.Store × Disk) entry =>
          let appended := kept.1.append kept.2 entry (surroundings.now.fdiv 1000)
          (appended.store, appended.disk))
        (store, surroundings.disk)).2

/-- Runs what is wished for. -/
def run (surroundings : Surroundings) (wish : RunWish) : Response :=
  match wish.find surroundings with
  | .error failure => .failed surroundings.disk [] failure
  | .ok request =>
      let driven := drive request surroundings.now
      let progress := driven.events.filterMap (eventLine? wish.asData)
      match driven.report with
      | .error error => .failed surroundings.disk progress (.unreported error)
      | .ok report =>
          { code := statusCode report.status
            output := reportOutput wish.asData report
            complaints := ofLines progress
            disk := keep surroundings driven.offered }

end RequestFlow.Command
