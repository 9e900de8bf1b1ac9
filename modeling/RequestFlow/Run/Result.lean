/-!
# Outcomes and results

A client answers a dispatch with an outcome: a response, that it skipped the
request, or that it canceled.  The run records a result for every dispatch and for
every step that ends without one.
-/

namespace RequestFlow

/-- An assertion that a client checked. -/
structure TestResult where
  name : String
  passed : Bool
  /-- What the client says about it. -/
  message : Option String
  deriving DecidableEq

/-- A response as a client reports it. -/
structure Snapshot where
  status : String
  statusCode : Option Nat
  /-- The duration in milliseconds. -/
  duration : Nat
  /-- The assertions in order. -/
  tests : List TestResult
  /-- The error of a response script. -/
  scriptError : Option String
  /-- The error that kept the response away. -/
  transportError : Option String
  body : Option String
  deriving DecidableEq

namespace Snapshot

/-- A response of which nothing is known. -/
def blank : Snapshot := ⟨"", none, 0, [], none, none, none⟩

instance : Inhabited Snapshot := ⟨blank⟩

/-- The response that did not come. -/
def transportFailure (message : String) : Snapshot :=
  { blank with transportError := some message }

/-- The first assertion that does not hold. -/
def firstFailedTest? (snapshot : Snapshot) : Option TestResult :=
  snapshot.tests.find? fun test => !test.passed

end Snapshot

/-- What a client answers. -/
inductive Outcome where
  /-- A response, or why there is none. -/
  | completed (snapshot : Snapshot)
  | skipped (reason : String)
  | canceled
  deriving DecidableEq

/-- How a step went. -/
inductive StepStatus where
  | succeeded
  | failed
  | skipped
  deriving DecidableEq

namespace StepStatus

/-- The name of a status. -/
def text : StepStatus → String
  | succeeded => "succeeded"
  | failed => "failed"
  | skipped => "skipped"

/-- The mark of a status in a report. -/
def mark : StepStatus → String
  | succeeded => "PASS"
  | failed => "FAIL"
  | skipped => "SKIP"

end StepStatus

/-- The place of an item in its loop, from one. -/
structure Iteration where
  index : Nat
  total : Nat
  deriving DecidableEq

/-- The text of a place in a loop. -/
def Iteration.text (iteration : Iteration) : String :=
  s!"{iteration.index}/{iteration.total}"

/-- A step's label with its branch and its place in a loop. -/
def fullLabel (label : String) (branch : Option String)
    (iteration : Option Iteration) : String :=
  label ++ (branch.map (" → " ++ ·)).getD "" ++
    (iteration.map fun iteration => s!" ({iteration.text})").getD ""

/-- A recorded result. -/
structure StepResult where
  /-- The index of the step, from zero. -/
  stepIndex : Nat
  stepLabel : String
  request : Option String
  branch : Option String
  status : StepStatus
  statusText : String
  /-- The duration in milliseconds. -/
  duration : Nat
  /-- Why it failed or was skipped. -/
  message : Option String
  response : Option Snapshot
  iteration : Option Iteration
  error : Option String
  deriving DecidableEq

namespace StepResult

/-- The step succeeded. -/
def isSuccess (result : StepResult) : Bool :=
  result.status == .succeeded

/-- The step failed. -/
def isFailure (result : StepResult) : Bool :=
  result.status == .failed

/-- The step was skipped. -/
def isSkipped (result : StepResult) : Bool :=
  result.status == .skipped

/-- The label to show. -/
def displayLabel (result : StepResult) : String :=
  fullLabel result.stepLabel result.branch result.iteration

end StepResult

end RequestFlow
