import RequestFlow.Calendar
import RequestFlow.Command.Invocation
import RequestFlow.Command.Response
import RequestFlow.History.Store

/-!
# Showing the history

The newest runs, one on a line with its time, its name, its duration and its
summary, or as data.
-/

namespace RequestFlow.Command

/-- The width of a column of names of runs. -/
def runWidth : Nat := 24

/-- The width of a column of durations. -/
def durationWidth : Nat := 7

/-- The line of a record. -/
def recordLine (record : History.Record) : String :=
  let time := (Calendar.Moment.ofSeconds record.recordedAt).text
  let name := Text.atLeft runWidth record.entry.name
  let duration := Text.atRight durationWidth (toString record.entry.duration)
  s!"{time}  {name} {duration}ms  {record.entry.summary}"

/-- What is put out of records. -/
def recordLines (asData : Bool) (path : String) (records : List History.Record) :
    List String :=
  if asData then [(History.treeOfRecords records).pretty]
  else if records.isEmpty then [s!"No workflow runs recorded in {path}"]
  else records.map recordLine

/-- Shows the history. -/
def history (surroundings : Surroundings) (wish : HistoryWish) : Response :=
  match History.Store.load? surroundings.disk
      (History.usualPath surroundings.bindings) History.usualLimit with
  | none => .failed surroundings.disk [] .historyUnread
  | some store =>
      .plain surroundings.disk successCode
        (recordLines wish.asData store.path (store.recent wish.limit))

end RequestFlow.Command
