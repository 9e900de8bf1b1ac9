import RequestFlow.Run.Result

/-!
# Reports

What is said about a run: its results in order of recording, a summary of one
line, and the text of the report with one line for each result in the order of the
steps.
-/

namespace RequestFlow

/-- Where a run comes from. -/
inductive RunOrigin where
  | workflow
  /-- A single request with its own loop. -/
  | adHoc
  deriving DecidableEq

namespace RunOrigin

/-- The name of an origin. -/
def text : RunOrigin → String
  | workflow => "workflow"
  | adHoc => "ad_hoc_for_each"

/-- Loop items are bound for the whole run, too. -/
def promotes : RunOrigin → Bool
  | workflow => true
  | adHoc => false

end RunOrigin

/-- How a run went. -/
inductive RunStatus where
  | succeeded
  | failed
  | canceled
  deriving DecidableEq

/-- The name of a status. -/
def RunStatus.text : RunStatus → String
  | succeeded => "succeeded"
  | failed => "failed"
  | canceled => "canceled"

/-- How a run came to its end. -/
inductive RunEnd where
  | completed
  | stopped
  | canceled
  deriving DecidableEq

/-- The summary of a run's results. -/
def summarize (results : List StepResult) (totalSteps : Nat) (ending : RunEnd) :
    String :=
  let failures := results.countP StepResult.isFailure
  let failureCount := s!"{failures} of {results.length} steps failed"
  match ending with
  | .canceled =>
      s!"canceled at step {min (results.length + 1) (max totalSteps 1)}/{
        totalSteps}"
  | _ =>
      if failures = 0 then
        let passed := results.countP StepResult.isSuccess
        let skipped := results.countP StepResult.isSkipped
        let counts := s!"{passed}/{results.length} steps passed"
        if 0 < skipped then s!"{counts}, {skipped} skipped" else counts
      else
        match results.getLast? with
        | some last =>
            if ending = .stopped && last.isFailure then
              let message := last.message.getD "step failed"
              s!"failed at step {last.stepIndex + 1}/{totalSteps} ({
                last.displayLabel}): {message}"
            else failureCount
        | none => failureCount

/-- The line that shows a step under way. -/
def statusLine (stepIndex totalSteps : Nat) (label : String) : String :=
  s!"step {stepIndex + 1}/{totalSteps}: {label}"

/-- The record of a finished run. -/
structure Report where
  runId : Nat
  workflow : String
  origin : RunOrigin
  status : RunStatus
  summary : String
  /-- The results in order of recording. -/
  results : List StepResult
  totalSteps : Nat
  stopped : Bool
  canceledReason : Option String
  /-- When the run began, in milliseconds of Unix time. -/
  startedAt : Int
  /-- When the run ended, in milliseconds of Unix time. -/
  finishedAt : Int
  deriving DecidableEq

namespace Report

/-- The duration in milliseconds, 0 for a clock that went back. -/
def duration (report : Report) : Nat :=
  (report.finishedAt - report.startedAt).toNat

/-- The number of failures. -/
def failedCount (report : Report) : Nat :=
  report.results.countP StepResult.isFailure

/-- The number of skips. -/
def skippedCount (report : Report) : Nat :=
  report.results.countP StepResult.isSkipped

/-- A part of a line, behind a bar. -/
def barred (text : String) : String :=
  s!" | {text}"

/-- The line of a result. -/
def line (totalSteps : Nat) (result : StepResult) : String :=
  s!"[{result.status.mark}] {result.stepIndex + 1}/{totalSteps} {
      result.displayLabel}" ++
    (if result.statusText.isEmpty then "" else barred result.statusText) ++
    (if 0 < result.duration then barred s!"{result.duration}ms" else "") ++
    (result.message.map barred).getD ""

/-- The results by step, those of one step in order of recording. -/
def ordered (report : Report) : List StepResult :=
  report.results.mergeSort fun left right => left.stepIndex ≤ right.stepIndex

/-- The text of a report. -/
def text (report : Report) : String :=
  String.join
    (report.ordered.map fun result => line report.totalSteps result ++ "\n")

end Report

end RequestFlow
