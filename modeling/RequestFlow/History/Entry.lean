/-!
# Entries of the history

What the history keeps of a run of a declared workflow.
-/

namespace RequestFlow.History

/-- What is kept of a run. -/
structure Entry where
  name : String
  summary : String
  /-- The duration in milliseconds. -/
  duration : Nat
  definition : String
  tags : List String
  description : Option String
  deriving DecidableEq

end RequestFlow.History
