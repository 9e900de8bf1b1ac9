import RequestFlow.Scope.Layers

/-!
# What a run keeps of a dispatch

A dispatch leaves to the run the variables that its step has declared for it.
What is meant is that the run keeps the declared values and nothing of a loop's
item.  Main statement: it keeps what is meant exactly if the item is not bound
under a key that the step declares with another value; under such a key it keeps
the text of the item, and under all other keys what is meant.
-/

namespace RequestFlow

/-- The first entry with a key among the entries of some keys. -/
theorem findEntry_filterMap {Item : Type} (value? : String → Option Item)
    (keys : List String) (sought : String) :
    findEntry sought
        (keys.filterMap fun key => (value? key).map fun value => (key, value)) =
      if sought ∈ keys then value? sought else none := by
  induction keys with
  | nil => rfl
  | cons key keys hypothesis =>
      by_cases same : key = sought
      · subst same
        cases found : value? key with
        | none => simp [found, hypothesis]
        | some value => simp [found, findEntry]
      · have other : sought ≠ key := Ne.symm same
        cases found : value? key with
        | none => simp [found, hypothesis, other]
        | some value => simp [found, findEntry, hypothesis, same, other]

namespace Scope

/-! ## Keys -/

theorem isWorkflowKey_append (name : String) :
    isWorkflowKey (workflowMarker ++ name) = true := by
  simp [isWorkflowKey, beginsWith, Text.startsWith]

/-- The run's key of a name belongs to the run. -/
theorem isWorkflowKey_workflowKey (name : String) :
    isWorkflowKey (workflowKey name) = true := by
  rw [workflowKey]
  split
  · next already => exact already
  · exact isWorkflowKey_append _

/-- The request's key of a name does not belong to the run. -/
theorem isWorkflowKey_requestKey (name : String) :
    isWorkflowKey (requestKey name) = false := by
  rw [isWorkflowKey, beginsWith, requestKey, String.toList_append]
  rfl

/-- Of the keys of a loop only that of a promoted item belongs to the run. -/
theorem mem_loopKeys_iff {name key : String} {promote : Bool}
    (ofRun : isWorkflowKey key = true) :
    key ∈ loopKeys name promote ↔ promote = true ∧ key = workflowKey name := by
  have other : key ≠ requestKey name := by
    rintro rfl
    rw [isWorkflowKey_requestKey] at ofRun
    cases ofRun
  cases promote <;> simp [loopKeys, other]

/-! ## Declared values -/

/-- The value that a step declares under a key: that of the last of its variables
with this key. -/
def declared? (others : Scope) (step : Dictionary String) (key : String) :
    Option String :=
  (step.entries.reverse.find? fun entry => scopedKey entry.1 = key).map
    fun entry =>
    Template.fill others entry.2

/-- What a run is meant to have under a key after a dispatch: what the step
declares there if the key belongs to the run, and what the run had there if
not. -/
def meant? (workflow others : Scope) (step : Dictionary String) (key : String) :
    Option String :=
  if isWorkflowKey key then (declared? others step key).or (workflow.get? key)
  else workflow.get? key

theorem isSome_declared?_iff {others : Scope} {step : Dictionary String}
    {key : String} :
    (declared? others step key).isSome = true ↔ key ∈ step.keys.map scopedKey := by
  simp [declared?, Dictionary.keys]

theorem declared?_eq_none_iff {others : Scope} {step : Dictionary String}
    {key : String} :
    declared? others step key = none ↔ key ∉ step.keys.map scopedKey := by
  rw [← Option.not_isSome_iff_eq_none, isSome_declared?_iff]

theorem exists_declared (others : Scope) {step : Dictionary String} {key : String}
    (declares : key ∈ step.keys.map scopedKey) :
    ∃ value, declared? others step key = some value :=
  Option.isSome_iff_exists.mp (isSome_declared?_iff.mpr declares)

theorem get?_stepLayer (others : Scope) (step : Dictionary String) (key : String) :
    (DispatchScope.stepLayer others step).get? key =
      declared? others step key := by
  rw [DispatchScope.stepLayer, Dictionary.get?_ofList, ← List.map_reverse,
    declared?]
  exact Dictionary.findEntry_map (fun entry : String × String => scopedKey entry.1)
    (fun entry => Template.fill others entry.2) step.entries.reverse key

theorem get?_loopLayer (binding : LoopBinding) (key : String) :
    (DispatchScope.loopLayer (some binding)).get? key =
      if key ∈ binding.keys then some binding.text else none := by
  have entries :=
    findEntry_filterMap (fun _ => some binding.text) binding.keys.reverse key
  simp only [Option.map_some, List.filterMap_eq_map', List.mem_reverse,
    List.map_reverse] at entries
  rw [DispatchScope.loopLayer, Dictionary.get?_ofList]
  exact entries

/-! ## Kept values -/

theorem get?_persist (workflow dispatched : Scope) (step : Dictionary String)
    (key : String) :
    (workflow.persist dispatched step).get? key =
      if isWorkflowKey key = true ∧ key ∈ step.keys.map scopedKey then
        (dispatched.get? key).or (workflow.get? key)
      else workflow.get? key := by
  rw [persist, Dictionary.get?_overlay, Dictionary.get?_ofList,
    ← List.filterMap_reverse, findEntry_filterMap]
  simp only [List.mem_reverse, List.mem_filter, and_comm]
  split <;> rfl

section Loops

variable (ambient workflow : Scope) (step : Dictionary String)
  (binding : LoopBinding)

/-- The scope over which the variables of a step are filled: all layers but its
own. -/
def aroundStep : Scope :=
  (ambient.overlay workflow).overlay (DispatchScope.loopLayer (some binding))

/-- The variables of the run after a dispatch in a loop. -/
def keptInLoop : Scope :=
  workflow.persist
    (DispatchScope.build ambient workflow step (some binding)).bindings step

theorem get?_dispatched (key : String) :
    (DispatchScope.build ambient workflow step (some binding)).bindings.get? key =
      if key ∈ binding.keys then some binding.text
      else (declared? (aroundStep ambient workflow binding) step key).or
        ((ambient.overlay workflow).get? key) := by
  rw [DispatchScope.build, Dictionary.get?_overlay, Dictionary.get?_overlay,
    get?_stepLayer, get?_loopLayer, aroundStep]
  split
  · rfl
  · rfl

/-- What is kept is what is meant, save where a key of the run that the step
declares is bound to the item. -/
theorem get?_keptInLoop (key : String) :
    (keptInLoop ambient workflow step binding).get? key =
      if isWorkflowKey key = true ∧ key ∈ step.keys.map scopedKey ∧ key ∈
        binding.keys then
        some binding.text
      else meant? workflow (aroundStep ambient workflow binding) step key := by
  rw [keptInLoop, get?_persist, get?_dispatched, meant?]
  by_cases ofRun : isWorkflowKey key = true
  · by_cases declares : key ∈ step.keys.map scopedKey
    · by_cases bound : key ∈ binding.keys
      · simp [ofRun, declares, bound]
      · rcases exists_declared (aroundStep ambient workflow binding) declares with
          ⟨value, found⟩
        simp [ofRun, declares, bound, found]
    · have absent :
          declared? (aroundStep ambient workflow binding) step key = none :=
        declared?_eq_none_iff.mpr declares
      simp [ofRun, declares, absent]
  · simp [ofRun]

/-- A run keeps what is meant of a dispatch in a loop exactly if the item of the
loop does not hide another value that the step declares for the run. -/
theorem kept_eq_meant_iff (name : String) (promote : Bool) (text : String)
    (item : Value) :
    let binding : LoopBinding := ⟨name, loopKeys name promote, text, item⟩
    (∀ key,
        (keptInLoop ambient workflow step binding).get? key =
          meant? workflow (aroundStep ambient workflow binding) step key) ↔
      (promote = true →
        ∀ value,
          declared? (aroundStep ambient workflow binding) step (workflowKey name) =
              some value → value = text) := by
  intro binding
  constructor
  · intro kept promoted value found
    have declares : workflowKey name ∈ step.keys.map scopedKey :=
      isSome_declared?_iff.mp (Option.isSome_of_mem found)
    have ofRun := isWorkflowKey_workflowKey name
    have bound : workflowKey name ∈ binding.keys :=
      (mem_loopKeys_iff ofRun).mpr ⟨promoted, rfl⟩
    have same := kept (workflowKey name)
    rw [get?_keptInLoop, if_pos ⟨ofRun, declares, bound⟩, meant?, if_pos ofRun,
      found] at same
    exact (Option.some.inj same).symm
  · intro agrees key
    rw [get?_keptInLoop]
    split
    · next hidden =>
        rcases hidden with ⟨ofRun, declares, bound⟩
        rcases (mem_loopKeys_iff ofRun).mp bound with ⟨promoted, rfl⟩
        rcases exists_declared (aroundStep ambient workflow binding) declares with
          ⟨value, found⟩
        rw [meant?, if_pos ofRun, found, agrees promoted value found]
        rfl
    · rfl

end Loops

/-- The item of a loop over `id` hides the value that the step declares for the
run's `id`. -/
theorem kept_ne_meant_id :
    let step : Dictionary String := .ofList [("vars.workflow.id", "mine")]
    let binding : LoopBinding :=
      ⟨"id", loopKeys "id" true, "7", .data (.number (.integer 7))⟩
    (keptInLoop .empty .empty step binding).get? "vars.workflow.id" = some "7" ∧
      meant? .empty (aroundStep .empty .empty binding) step "vars.workflow.id" =
        some "mine" := by
  decide +kernel

end Scope

end RequestFlow
