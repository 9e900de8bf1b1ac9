import RequestFlow.Calendar
import RequestFlow.Json.Printer
import RequestFlow.Run.Report

/-!
# Writing reports

A report as data: every field in its place, also those that are absent.
-/

namespace RequestFlow

open Json

/-- A part that may be absent. -/
def Json.Syntax.optional {Part : Type} (write : Part → Syntax)
    (part : Option Part) : Syntax :=
  (part.map write).getD .null

/-- The written form of an assertion. -/
def TestResult.tree (test : TestResult) : Syntax :=
  .ofPairs
    [("name", .ofText test.name),
      ("passed", .bool test.passed),
      ("message", .ofOptionalText test.message)]

/-- The written form of a response. -/
def Snapshot.tree (snapshot : Snapshot) : Syntax :=
  .ofPairs [("status", .ofText snapshot.status),
    ("status_code", .optional (fun code : Nat => .ofInt code) snapshot.statusCode),
    ("duration_ms", .ofInt snapshot.duration),
    ("tests", .array (snapshot.tests.map TestResult.tree)),
    ("script_error", .ofOptionalText snapshot.scriptError),
    ("transport_error", .ofOptionalText snapshot.transportError),
    ("body", .ofOptionalText snapshot.body)]

/-- The written form of a place in a loop. -/
def Iteration.tree (iteration : Iteration) : Syntax :=
  .ofPairs [("index", .ofInt iteration.index), ("total", .ofInt iteration.total)]

/-- The written form of a result. -/
def StepResult.tree (result : StepResult) : Syntax :=
  .ofPairs
    [("step_index", .ofInt result.stepIndex),
      ("step_label", .ofText result.stepLabel),
      ("request", .ofOptionalText result.request),
      ("branch", .ofOptionalText result.branch),
      ("status", .ofText result.status.text),
      ("status_text", .ofText result.statusText),
      ("duration_ms", .ofInt result.duration),
      ("message", .ofOptionalText result.message),
      ("response", .optional Snapshot.tree result.response),
      ("iteration", .optional Iteration.tree result.iteration),
      ("error", .ofOptionalText result.error)]

/-- The written form of a report. -/
def Report.tree (report : Report) : Syntax :=
  .ofPairs
    [("run_id", .ofInt report.runId),
      ("workflow", .ofText report.workflow),
      ("origin", .ofText report.origin.text),
      ("status", .ofText report.status.text),
      ("summary", .ofText report.summary),
      ("results", .array (report.results.map StepResult.tree)),
      ("total_steps", .ofInt report.totalSteps),
      ("stopped", .bool report.stopped),
      ("canceled_reason", .ofOptionalText report.canceledReason),
      ("started_at", .ofText (Calendar.stamp report.startedAt)),
      ("finished_at", .ofText (Calendar.stamp report.finishedAt))]

end RequestFlow
