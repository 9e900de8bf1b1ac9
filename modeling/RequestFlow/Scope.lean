import RequestFlow.Dictionary
import RequestFlow.Text.Blank
import RequestFlow.Text.Search

/-!
# Variable scopes

A scope is a dictionary of texts.  A key that begins with `vars.request.` belongs
to one request, a key that begins with `vars.workflow.` to the whole run, and a
key that begins with `env.` is a variable of the process; any other key is
ambient.  A bare name is looked up for the request, then for the run, then as it
stands.
-/

namespace RequestFlow

/-- Variables by key. -/
abbrev Scope := Dictionary String

namespace Scope

/-- The beginning that all marked keys of variables share. -/
def marker : String := "vars."

/-- The beginning of a request's keys. -/
def requestMarker : String := "vars.request."

/-- The beginning of the run's keys. -/
def workflowMarker : String := "vars.workflow."

/-- The beginning of the keys of process variables. -/
def environmentMarker : String := "env."

/-- A name begins with a marker. -/
def beginsWith (start name : String) : Bool :=
  Text.startsWith start.toList name.toList

/-- A name says itself where it belongs. -/
def isMarked (name : String) : Bool :=
  beginsWith marker name || beginsWith environmentMarker name

/-- A key belongs to the run. -/
def isWorkflowKey (key : String) : Bool :=
  beginsWith workflowMarker key

/-- The request's key of a name. -/
def requestKey (name : String) : String :=
  requestMarker ++ Text.trimmed name

/-- The run's key of a name. -/
def workflowKey (name : String) : String :=
  let name := Text.trimmed name
  if isWorkflowKey name then name else workflowMarker ++ name

/-- The key of a step's variable: a marked name stands for itself, any other
belongs to the request. -/
def scopedKey (name : String) : String :=
  let name := Text.trimmed name
  if isMarked name then name else requestKey name

/-- The process variables. -/
def ofEnvironment (bindings : List (String × String)) : Scope :=
  .ofList (bindings.map fun entry => (environmentMarker ++ entry.1, entry.2))

/-- The variables of the run, under its keys. -/
def ofWorkflow (bindings : Dictionary String) : Scope :=
  .ofList (bindings.entries.map fun entry => (workflowKey entry.1, entry.2))

/-- The value of a name: a marked name is a key, a bare one is tried for the
request, for the run and as it stands. -/
def lookup (scope : Scope) (name : String) : Option String :=
  let name := Text.trimmed name
  if isMarked name then scope.get? name
  else
    (scope.get? (requestKey name)).or
      ((scope.get? (workflowKey name)).or (scope.get? name))

/-- The part of the scope that belongs to the run. -/
def workflowPart (scope : Scope) : Scope :=
  scope.filterKeys isWorkflowKey

/-- The keys that a loop binds its item under: the request's, and the run's if the
item is promoted. -/
def loopKeys (name : String) (promote : Bool) : List String :=
  if promote then [requestKey name, workflowKey name] else [requestKey name]

end Scope

end RequestFlow
