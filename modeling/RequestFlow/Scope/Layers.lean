import RequestFlow.Template
import RequestFlow.Value

/-!
# The scope of a dispatch

The variables of one dispatch come in four layers, low to high: ambient, run,
step, loop item.  The values of step variables are templates over the other three
layers and never see each other.  After a dispatch the run keeps the step
variables that belong to it, with the values that the dispatch had.
-/

namespace RequestFlow

/-- Typed values by name, for the conditions of the current step. -/
abbrev Bindings := Dictionary Value

/-- The current item of a loop. -/
structure LoopBinding where
  /-- The loop variable as authored. -/
  name : String
  /-- The keys that the item's text is bound under. -/
  keys : List String
  text : String
  item : Value

/-- The variables of a dispatch and the typed values of its conditions. -/
structure DispatchScope where
  bindings : Scope
  /-- The loop item by the name of the loop variable. -/
  typed : Bindings

namespace DispatchScope

/-- The layer of a loop item. -/
def loopLayer (binding : Option LoopBinding) : Scope :=
  match binding with
  | none => .empty
  | some binding => .ofList (binding.keys.map fun key => (key, binding.text))

/-- The layer of the step's variables, filled over the other layers. -/
def stepLayer (others : Scope) (bindings : Dictionary String) : Scope :=
  .ofList (bindings.entries.map fun entry =>
    (Scope.scopedKey entry.1, Template.fill others entry.2))

/-- The typed values that a loop item gives. -/
def typedLayer (binding : Option LoopBinding) : Bindings :=
  match binding with
  | none => .empty
  | some binding => .ofList [(binding.name, binding.item)]

/-- Puts the layers of a dispatch together. -/
def build (ambient workflow : Scope) (step : Dictionary String)
    (binding : Option LoopBinding) : DispatchScope :=
  let base := ambient.overlay workflow
  let loop := loopLayer binding
  { bindings := (base.overlay (stepLayer (base.overlay loop) step)).overlay loop
    typed := typedLayer binding }

end DispatchScope

/-- The run's variables after a dispatch: the step's variables that belong to the
run are kept. -/
def Scope.persist (workflow dispatched : Scope) (step : Dictionary String) :
    Scope :=
  let declared := (step.keys.map Scope.scopedKey).filter Scope.isWorkflowKey
  workflow.overlay (.ofList (declared.filterMap fun key =>
    (dispatched.get? key).map fun value => (key, value)))

end RequestFlow
