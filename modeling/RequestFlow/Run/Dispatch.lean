import RequestFlow.Run.Prepared

/-!
# Dispatches

A dispatch is a request that is handed out to be sent.  It carries a mark, and the
answer to it carries the same mark, so that late and repeated answers can be told
apart from the awaited one.
-/

namespace RequestFlow

/-- The mark of a dispatch: the number of the run and of the dispatch in it. -/
structure Token where
  runId : Nat
  sequence : Nat
  deriving DecidableEq

/-- The text of a mark. -/
def Token.text (token : Token) : String :=
  s!"{token.runId}#{token.sequence}"

/-- A request to send. -/
structure Dispatch where
  token : Token
  stepIndex : Nat
  /-- The line that shows the step. -/
  statusLine : String
  request : PreparedRequest
  options : Options
  bindings : Scope
  deriving DecidableEq

end RequestFlow
