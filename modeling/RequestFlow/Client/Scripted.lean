import RequestFlow.Client.Status
import RequestFlow.Run.Engine

/-!
# The scripted client

A client that replays outcomes: they are queued per request, names taken without
regard to the case of letters, and when a queue is empty the fallback is answered.
Every call is kept.
-/

namespace RequestFlow.Client

/-- A response of one millisecond with a status code. -/
def snapshotOf (code : Nat) : Snapshot :=
  { Snapshot.blank with
    status := statusText code
    statusCode := some code
    duration := 1 }

/-- A response with a status code. -/
def statusOutcome (code : Nat) : Outcome :=
  .completed (snapshotOf code)

/-- A response with a status code and assertions. -/
def testedOutcome (code : Nat) (tests : List TestResult) : Outcome :=
  .completed { snapshotOf code with tests := tests }

/-- A response that did not come. -/
def transportOutcome (message : String) : Outcome :=
  .completed (.transportFailure message)

/-- A call that was made. -/
structure Call where
  request : PreparedRequest
  options : Options
  bindings : Scope
  deriving DecidableEq

/-- The scripted client. -/
structure Scripted where
  /-- The outcomes to come, by request. -/
  queues : Dictionary (List Outcome)
  /-- The outcome once a queue is empty. -/
  fallback : Outcome
  /-- The requests that are never answered. -/
  hanging : List String
  calls : List Call

namespace Scripted

/-- A client that answers every request with status 200. -/
def new : Scripted := ⟨.empty, statusOutcome 200, [], []⟩

/-- The queue of a name as it is given when outcomes are queued. -/
def queueKey (name : String) : String :=
  Text.lower (Text.trimmed name)

/-- Queues an outcome. -/
def respond (client : Scripted) (name : String) (outcome : Outcome) : Scripted :=
  let key := queueKey name
  { client with
    queues :=
      client.queues.insert key (((client.queues.get? key).getD []) ++ [outcome]) }

/-- Sets the outcome of empty queues. -/
def withFallback (client : Scripted) (outcome : Outcome) : Scripted :=
  { client with fallback := outcome }

/-- Leaves a request without an answer. -/
def hangOn (client : Scripted) (name : String) : Scripted :=
  { client with hanging := client.hanging ++ [queueKey name] }

/-- Keeps a call. -/
def receive (client : Scripted) (call : Call) : Scripted :=
  { client with calls := client.calls ++ [call] }

/-- A request is never answered. -/
def hangs (client : Scripted) (name : String) : Bool :=
  client.hanging.contains (Text.lower name)

/-- The next outcome of a request. -/
def nextOutcome (client : Scripted) (name : String) : Outcome × Scripted :=
  let key := Text.lower name
  match client.queues.get? key with
  | some (outcome :: outcomes) =>
      (outcome, { client with queues := client.queues.insert key outcomes })
  | _ => (client.fallback, client)

/-- Keeps a call and answers it, unless it hangs. -/
def execute (client : Scripted) (call : Call) : Option Outcome × Scripted :=
  let client := client.receive call
  if client.hangs call.request.name then (none, client)
  else
    let answer := client.nextOutcome call.request.name
    (some answer.1, answer.2)

end Scripted

end RequestFlow.Client
