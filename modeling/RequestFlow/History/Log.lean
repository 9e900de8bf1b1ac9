import RequestFlow.History.Entry
import RequestFlow.Redaction

/-!
# The log of the history

The log keeps the latest runs, the newest one first, up to a limit.  The text of a
definition is redacted before it is kept.  The main statements give the records
after a run was kept.
-/

namespace RequestFlow.History

/-- A run that was kept. -/
structure Record where
  entry : Entry
  /-- When it was kept, in seconds of Unix time. -/
  recordedAt : Int
  deriving DecidableEq

/-- The runs that are kept, the newest one first. -/
structure Log where
  records : List Record
  deriving DecidableEq

/-- The number of records that are kept if nothing else is said. -/
def usualLimit : Nat := 500

namespace Log

/-- A log without records. -/
def empty : Log := ⟨[]⟩

/-- The entry without the secrets of its definition. -/
def redacted (entry : Entry) : Entry :=
  { entry with definition := Redaction.redact entry.definition }

/-- Keeps a run and gives up the oldest ones beyond the limit. -/
def push (log : Log) (limit : Nat) (entry : Entry) (now : Int) : Log :=
  ⟨(⟨redacted entry, now⟩ :: log.records).take limit⟩

/-- The newest records, at most so many. -/
def recent (log : Log) (count : Nat) : List Record :=
  log.records.take count

@[simp]
theorem records_push (log : Log) (limit : Nat) (entry : Entry) (now : Int) :
    (log.push limit entry now).records =
      (⟨redacted entry, now⟩ :: log.records).take limit :=
  rfl

theorem length_records_push_le (log : Log) (limit : Nat) (entry : Entry)
    (now : Int) : (log.push limit entry now).records.length ≤ limit :=
  List.length_take_le _ _

end Log

end RequestFlow.History
