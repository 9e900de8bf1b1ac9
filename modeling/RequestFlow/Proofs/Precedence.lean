import RequestFlow.Proofs.Layering
import RequestFlow.Proofs.Names

/-!
# Precedence of layers and of keys

A bare name is looked up under three keys, one after the other, and each key in
the four layers of a dispatch, one after the other.  What is meant is that the
highest layer wins that binds the name under any of the keys.  Main statement: it
wins exactly if no lower layer binds the name for the request, with another value,
while all layers above it bind it for the run alone; and a name without a value is
bound by no layer.
-/

namespace RequestFlow

namespace Scope

/-! ## Marked keys -/

theorem isMarked_append (rest : String) : isMarked (marker ++ rest) = true := by
  rw [isMarked, beginsWith, Text.startsWith, String.toList_append,
    Text.dropStart?_append]
  rfl

theorem isMarked_of_isWorkflowKey {key : String}
    (ofRun : isWorkflowKey key = true) : isMarked key = true := by
  rcases Option.isSome_iff_exists.mp ofRun with ⟨rest, dropped⟩
  have text : key = marker ++ ("workflow." ++ String.ofList rest) := by
    apply String.toList_injective
    rw [Text.eq_append_of_dropStart? dropped]
    simp [workflowMarker, marker]
  rw [text]
  exact isMarked_append _

/-- A key without a marker is no key of a workflow. -/
theorem isWorkflowKey_of_bare {key : String} (bare : isMarked key = false) :
    isWorkflowKey key = false := by
  cases ofRun : isWorkflowKey key with
  | false => rfl
  | true => cases bare.symm.trans (isMarked_of_isWorkflowKey ofRun)

theorem isMarked_requestKey (name : String) :
    isMarked (requestKey name) = true := by
  have text : requestKey name = marker ++ ("request." ++ Text.trimmed name) := by
    rw [requestKey, ← String.append_assoc]
    rfl
  rw [text]
  exact isMarked_append _

theorem isMarked_workflowKey (name : String) :
    isMarked (workflowKey name) = true :=
  isMarked_of_isWorkflowKey (isWorkflowKey_workflowKey name)

theorem isMarked_scopedKey (name : String) : isMarked (scopedKey name) = true := by
  rw [scopedKey]
  split
  · next already => exact already
  · exact isMarked_requestKey _

/-- A loop binds its item under marked keys only. -/
theorem isMarked_of_mem_loopKeys {name key : String} {promote : Bool}
    (member : key ∈ loopKeys name promote) : isMarked key = true := by
  cases promote with
  | false =>
      rcases List.mem_singleton.mp member with rfl
      exact isMarked_requestKey name
  | true =>
      rcases List.mem_cons.mp member with rfl | member
      · exact isMarked_requestKey name
      · rcases List.mem_singleton.mp member with rfl
        exact isMarked_workflowKey name

/-! ## Keys of a name and layers of a dispatch -/

/-- The keys under which a bare name is looked up, in order. -/
def aliases (name : String) : List String :=
  [requestKey name, workflowKey name, Text.trimmed name]

theorem findSome?_cons_eq_or {Source Target : Type}
    (value? : Source → Option Target) (source : Source) (sources : List Source) :
    (source :: sources).findSome? value? =
      (value? source).or (sources.findSome? value?) := by
  rw [List.findSome?_cons]
  cases value? source <;> rfl

theorem findSome?_congr {Source Target : Type}
    {left right : Source → Option Target} {sources : List Source}
    (same : ∀ source ∈ sources, left source = right source) :
    sources.findSome? left = sources.findSome? right := by
  induction sources with
  | nil => rfl
  | cons source sources hypothesis =>
      rcases List.forall_mem_cons.mp same with ⟨first, others⟩
      rw [findSome?_cons_eq_or, findSome?_cons_eq_or, first, hypothesis others]

/-- Blanks around a name make no difference to its keys, and so none to its
lookup. -/
theorem requestKey_trimmed (name : String) :
    requestKey (Text.trimmed name) = requestKey name := by
  rw [requestKey, Text.trimmed_trimmed, requestKey]

theorem workflowKey_trimmed (name : String) :
    workflowKey (Text.trimmed name) = workflowKey name := by
  rw [workflowKey, Text.trimmed_trimmed, workflowKey]

theorem lookup_trimmed (scope : Scope) (name : String) :
    scope.lookup (Text.trimmed name) = scope.lookup name := by
  simp only [lookup, Text.trimmed_trimmed]

/-- A bare name is looked up under its aliases one by one. -/
theorem lookup_of_bare {name : String}
    (bare : isMarked (Text.trimmed name) = false) (scope : Scope) :
    scope.lookup name = (aliases name).findSome? scope.get? := by
  simp only [lookup, bare, aliases, findSome?_cons_eq_or, List.findSome?_nil,
    Option.or_none, requestKey_trimmed, workflowKey_trimmed, Bool.false_eq_true,
    if_false]

/-- The value that the highest of some layers gives a name, the highest layer
being the first. -/
def highest? (name : String) (layers : List Scope) : Option String :=
  layers.findSome? fun layer => (aliases name).findSome? layer.get?

/-- Where the first layer that binds a name for the request is not the first that
binds it at all, both give it the same value. -/
def Unhidden (name : String) (layers : List Scope) : Prop :=
  ∀ above layer below, layers = above ++ layer :: below →
    (∀ other ∈ above, other.get? (requestKey name) = none) →
      ∀ value, layer.get? (requestKey name) = some value →
        ∀ upper, highest? name above = some upper → upper = value

/-- The higher layers are asked before the lower ones. -/
theorem highest?_append (name : String) (above below : List Scope) :
    highest? name (above ++ below) =
      (highest? name above).or (highest? name below) :=
  List.findSome?_append

/-! ## Layers in general -/

section Layers

variable {name : String} {scope lowest : Scope} {upper : List Scope}

/-- A layer hides nothing if it binds the name for the request wherever it binds
it at all. -/
theorem unhidden_cons {layer : Scope} {layers : List Scope}
    (requested :
      layer.get? (requestKey name) = none → highest? name [layer] = none)
    (unhidden : Unhidden name layers) : Unhidden name (layer :: layers) := by
  intro above other below split unbound value found upper higher
  cases above with
  | nil => cases higher
  | cons top above =>
      rcases List.cons.inj split with ⟨rfl, rest⟩
      rcases List.forall_mem_cons.mp unbound with ⟨absent, unbound⟩
      refine unhidden above other below rest unbound value found upper ?_
      rw [← List.singleton_append, highest?_append, requested absent,
        Option.none_or] at higher
      exact higher

/-- Nothing is hidden below a layer if no layer below it binds the name for the
request. -/
theorem unhidden_of_unrequested {layer : Scope} {layers : List Scope}
    (unrequested : ∀ other ∈ layers, other.get? (requestKey name) = none) :
    Unhidden name (layer :: layers) := by
  intro above other below split unbound value found upper higher
  cases above with
  | nil => cases higher
  | cons top above =>
      rcases List.cons.inj split with ⟨rfl, rest⟩
      have listed : other ∈ layers :=
        rest ▸ List.mem_append_right _ List.mem_cons_self
      cases (unrequested other listed).symm.trans found

/-- A name has no value exactly if no layer binds it. -/
theorem lookup_eq_none_iff {layers : List Scope}
    (bare : isMarked (Text.trimmed name) = false)
    (values :
      ∀ key, scope.get? key = layers.findSome? fun layer => layer.get? key) :
    scope.lookup name = none ↔
      ∀ layer ∈ layers, ∀ key ∈ aliases name, layer.get? key = none := by
  rw [lookup_of_bare bare, List.findSome?_eq_none_iff]
  simp only [values, List.findSome?_eq_none_iff]
  exact ⟨fun none layer listed key known => none key known layer listed,
    fun none key known layer listed => none layer listed key known⟩

/-- What a layer gives a name under the request's key is looked up before all
else. -/
theorem highest?_of_first {layers above below : List Scope} {layer : Scope}
    {value : String} (split : layers = above ++ layer :: below)
    (found : layer.get? (requestKey name) = some value) :
    highest? name layers = (highest? name above).or (some value) := by
  have first : (aliases name).findSome? layer.get? = some value := by
    rw [aliases, findSome?_cons_eq_or, found, Option.some_or]
  rw [split, highest?_append, highest?, highest?, findSome?_cons_eq_or, first,
    Option.some_or]

/-- A name that no layer binds for the request has the value of the highest layer,
if only the lowest one has keys without a marker. -/
theorem lookup_of_unrequested (bare : isMarked (Text.trimmed name) = false)
    (values : ∀ key,
        scope.get? key = (upper ++ [lowest]).findSome? fun layer => layer.get? key)
    (marked : ∀ layer ∈ upper, layer.get? (Text.trimmed name) = none)
    (unrequested :
      ∀ layer ∈ upper ++ [lowest], layer.get? (requestKey name) = none) :
    scope.lookup name = highest? name (upper ++ [lowest]) := by
  have requested : scope.get? (requestKey name) = none := by
    rw [values, List.findSome?_eq_none_iff]
    exact unrequested
  have bares :
      (upper.findSome? fun layer => layer.get? (Text.trimmed name)) = none :=
    List.findSome?_eq_none_iff.mpr marked
  have uppers :
      highest? name upper =
        upper.findSome? fun layer => layer.get? (workflowKey name) := by
    refine findSome?_congr ?_
    intro layer listed
    simp only [aliases, findSome?_cons_eq_or,
      unrequested layer (List.mem_append_left _ listed), marked layer listed,
      List.findSome?_nil, Option.none_or, Option.or_none]
  have last : highest? name [lowest] =
      (lowest.get? (workflowKey name)).or (lowest.get? (Text.trimmed name)) := by
    have own :=
      unrequested lowest (List.mem_append_right _ (List.mem_singleton_self _))
    simp only [highest?, aliases, findSome?_cons_eq_or, own, List.findSome?_nil,
      Option.none_or, Option.or_none]
  calc
    scope.lookup name
        = (scope.get? (workflowKey name)).or (scope.get? (Text.trimmed name)) := by
          rw [lookup_of_bare bare]
          simp only [aliases, findSome?_cons_eq_or, requested, List.findSome?_nil,
            Option.none_or, Option.or_none]
    _ = ((highest? name upper).or (lowest.get? (workflowKey name))).or
          (lowest.get? (Text.trimmed name)) := by
          rw [values, values, List.findSome?_append, List.findSome?_append, bares,
            ← uppers]
          simp only [findSome?_cons_eq_or, List.findSome?_nil, Option.none_or,
            Option.or_none]
    _ = highest? name (upper ++ [lowest]) := by
          rw [highest?_append, last, Option.or_assoc]

/-- The highest layer that binds a name wins exactly if no layer hides it. -/
theorem lookup_eq_highest?_iff_unhidden
    (bare : isMarked (Text.trimmed name) = false)
    (values : ∀ key,
        scope.get? key = (upper ++ [lowest]).findSome? fun layer => layer.get? key)
    (marked : ∀ layer ∈ upper, layer.get? (Text.trimmed name) = none) :
    scope.lookup name = highest? name (upper ++ [lowest]) ↔
      Unhidden name (upper ++ [lowest]) := by
  have requested {value : String}
      (found : scope.get? (requestKey name) = some value) :
      scope.lookup name = some value := by
    rw [lookup_of_bare bare, aliases, findSome?_cons_eq_or, found, Option.some_or]
  constructor
  · intro wins above layer below split unrequested value found other higher
    have first : scope.get? (requestKey name) = some value := by
      rw [values, List.findSome?_eq_some_iff]
      exact ⟨above, layer, below, split, found, unrequested⟩
    rw [requested first, highest?_of_first split found, higher, Option.some_or]
      at wins
    exact (Option.some.inj wins).symm
  · intro unhidden
    cases first : scope.get? (requestKey name) with
    | none =>
        rw [values, List.findSome?_eq_none_iff] at first
        exact lookup_of_unrequested bare values marked first
    | some value =>
        rw [requested first]
        rw [values, List.findSome?_eq_some_iff] at first
        rcases first with ⟨above, layer, below, split, found, unrequested⟩
        rw [highest?_of_first split found]
        cases higher : highest? name above with
        | none => rfl
        | some upper =>
            rw [unhidden above layer below split unrequested value found upper
                higher]
            rfl

end Layers

/-! ## Layers of a dispatch -/

/-- The layers of a dispatch, the highest one first. -/
def layersOf (ambient workflow : Scope) (step : Dictionary String)
    (binding : Option LoopBinding) : List Scope :=
  [DispatchScope.loopLayer binding,
    DispatchScope.stepLayer (around ambient workflow binding) step, workflow,
    ambient]

/-- A dispatch scope answers for a key with the highest layer that has it. -/
theorem get?_build_layersOf (ambient workflow : Scope) (step : Dictionary String)
    (binding : Option LoopBinding) (key : String) :
    (DispatchScope.build ambient workflow step binding).bindings.get? key =
      (layersOf ambient workflow step binding).findSome? fun layer =>
        layer.get? key := by
  simp only [get?_build, layersOf, findSome?_cons_eq_or, get?_loopLayer_eq,
    get?_stepLayer, List.findSome?_nil, Option.or_none]

/-- The layer of a loop has no key but those of its item. -/
theorem get?_loopLayer_of_not_mem {binding : Option LoopBinding} {key : String}
    (unbound : ∀ item, binding = some item → key ∉ item.keys) :
    (DispatchScope.loopLayer binding).get? key = none := by
  rw [get?_loopLayer_eq]
  exact LoopBinding.textAt?_eq_none unbound

theorem get?_ofWorkflow_of_foreign {workflow : Dictionary String} {key : String}
    (foreign : isWorkflowKey key = false) :
    (ofWorkflow workflow).get? key = none := by
  refine Dictionary.get?_of_not_mem_keys ?_
  intro member
  rw [isWorkflowKey_of_mem_ofWorkflow member] at foreign
  cases foreign

section Dispatches

variable {workflow : Dictionary String} {binding : Option LoopBinding}
  {name : String}

/-- All layers but the ambient one have marked keys alone. -/
theorem marked_layersOf
    (keyed : ∀ item,
        binding = some item → ∃ promote, item.keys = loopKeys item.name promote)
    {key : String} (bare : isMarked key = false) (ambient : Scope)
    (workflow step : Dictionary String) :
    ∀ layer ∈ (layersOf ambient (ofWorkflow workflow) step binding).dropLast,
      layer.get? key = none := by
  have unlike {other : String} (marked : isMarked other = true) : other ≠ key := by
    rintro rfl
    rw [bare] at marked
    cases marked
  intro layer listed
  simp only [layersOf, List.dropLast_cons_cons, List.dropLast_singleton,
    List.mem_cons, List.not_mem_nil, or_false] at listed
  rcases listed with rfl | rfl | rfl
  · refine get?_loopLayer_of_not_mem ?_
    intro item present member
    rcases keyed item present with ⟨promote, keys⟩
    rw [keys] at member
    exact unlike (isMarked_of_mem_loopKeys member) rfl
  · rw [get?_stepLayer, declared?_eq_none_iff]
    intro member
    rcases List.mem_map.mp member with ⟨authored, declared, same⟩
    exact unlike (isMarked_scopedKey authored) same
  · exact get?_ofWorkflow_of_foreign (isWorkflowKey_of_bare bare)

/-- A name that is no workflow key itself gets the marker of the workflow. -/
theorem workflowKey_of_foreign
    (foreign : isWorkflowKey (Text.trimmed name) = false) :
    workflowKey name = workflowMarker ++ Text.trimmed name := by
  simp only [workflowKey, foreign, Bool.false_eq_true, if_false]

/-- An item with a bare name that is bound under the run's key of a bare name is
bound under the request's key of this name too. -/
theorem requestKey_mem_loopKeys {looped : String} {promote : Bool}
    (bare : isMarked (Text.trimmed name) = false)
    (own : isMarked (Text.trimmed looped) = false)
    (member : workflowKey name ∈ loopKeys looped promote) :
    requestKey name ∈ loopKeys looped promote := by
  rcases (mem_loopKeys_iff (isWorkflowKey_workflowKey name)).mp member with
    ⟨rfl, same⟩
  rw [workflowKey_of_foreign (isWorkflowKey_of_bare bare),
    workflowKey_of_foreign (isWorkflowKey_of_bare own), String.append_right_inj]
    at same
  rw [requestKey, same]
  exact List.mem_cons_self

/-- An item with a bare name is bound for the request wherever it is bound at
all. -/
theorem highest?_loopLayer_eq_none
    (keyed : ∀ item,
        binding = some item → ∃ promote, item.keys = loopKeys item.name promote)
    (bare : isMarked (Text.trimmed name) = false)
    (own : ∀ item, binding = some item → isMarked (Text.trimmed item.name) = false)
    (absent : (DispatchScope.loopLayer binding).get? (requestKey name) = none) :
    highest? name [DispatchScope.loopLayer binding] = none := by
  have unpromoted :
      (DispatchScope.loopLayer binding).get? (workflowKey name) = none := by
    refine get?_loopLayer_of_not_mem ?_
    intro item present member
    rcases keyed item present with ⟨promote, keys⟩
    have requested :
        (DispatchScope.loopLayer binding).get? (requestKey name) =
          some item.text := by
      rw [get?_loopLayer_eq, LoopBinding.textAt?_eq_some_iff]
      refine ⟨item, present, ?_, rfl⟩
      rw [keys] at member ⊢
      exact requestKey_mem_loopKeys bare (own item present) member
    cases absent.symm.trans requested
  have marked :
      (DispatchScope.loopLayer binding).get? (Text.trimmed name) = none :=
    marked_layersOf keyed bare .empty .empty .empty _ List.mem_cons_self
  simp only [highest?, aliases, findSome?_cons_eq_or, absent, unpromoted, marked,
    List.findSome?_nil, Option.or_none]

/-- No layer of a dispatch hides another if the loop variable is bare and no
ambient variable has the request's key of the name. -/
theorem unhidden_layersOf
    (keyed : ∀ item,
        binding = some item → ∃ promote, item.keys = loopKeys item.name promote)
    (bare : isMarked (Text.trimmed name) = false) {ambient : Scope}
    (own : ∀ item, binding = some item → isMarked (Text.trimmed item.name) = false)
    (unrequested : ambient.get? (requestKey name) = none)
    (step : Dictionary String) :
    Unhidden name (layersOf ambient (ofWorkflow workflow) step binding) := by
  -- Below the variables of the step nothing is bound for the request.
  refine unhidden_cons (highest?_loopLayer_eq_none keyed bare own)
    (unhidden_of_unrequested ?_)
  intro layer listed
  simp only [List.mem_cons, List.not_mem_nil, or_false] at listed
  rcases listed with rfl | rfl
  · exact get?_ofWorkflow_of_foreign (isWorkflowKey_requestKey name)
  · exact unrequested

end Dispatches

end Scope

open Scope in
/-- A bare name has the value of the highest layer that binds it exactly if no
lower layer hides that; so it has if no ambient variable has the request's key of
the name and the loop variable is bare.  It has no value exactly if no layer binds
it. -/
theorem lookup_by_layers {binding : Option LoopBinding}
    (keyed : ∀ item,
        binding = some item → ∃ promote, item.keys = loopKeys item.name promote)
    {name : String} (bare : isMarked (Text.trimmed name) = false) (ambient : Scope)
    (workflow step : Dictionary String) :
    let scope :=
      (DispatchScope.build ambient (ofWorkflow workflow) step binding).bindings
    let layers := layersOf ambient (ofWorkflow workflow) step binding
    (scope.lookup name = highest? name layers ↔ Unhidden name layers) ∧
    (ambient.get? (requestKey name) = none →
      (∀ item, binding = some item → isMarked (Text.trimmed item.name) = false) →
        scope.lookup name = highest? name layers) ∧
    (scope.lookup name = none ↔
      ∀ layer ∈ layers, ∀ key ∈ aliases name, layer.get? key = none) := by
  intro scope layers
  have values := get?_build_layersOf ambient (ofWorkflow workflow) step binding
  have wins : scope.lookup name = highest? name layers ↔ Unhidden name layers :=
    lookup_eq_highest?_iff_unhidden bare values
      (marked_layersOf keyed bare ambient workflow step)
  refine ⟨wins, ?_, lookup_eq_none_iff bare values⟩
  intro unrequested own
  exact wins.mpr (unhidden_layersOf keyed bare own unrequested step)

/-- The item of a loop over `id` wins over what all other layers bind under any of
the keys. -/
theorem lookup_by_layers_item :
    let binding : LoopBinding :=
      ⟨"id", Scope.loopKeys "id" true, "7", .data (.number (.integer 7))⟩
    let ambient : Scope := .ofList [("id", "ambient"), ("vars.workflow.id", "low")]
    let workflow : Dictionary String := .ofList [("id", "workflow")]
    let step : Dictionary String :=
      .ofList [(" id ", "step"), ("vars.workflow.id", "kept")]
    let scope :=
      (DispatchScope.build ambient (Scope.ofWorkflow workflow) step
        binding).bindings
    let layers := Scope.layersOf ambient (Scope.ofWorkflow workflow) step binding
    Scope.Unhidden "id" layers ∧ scope.lookup "id" = Scope.highest? "id" layers ∧
      layers.map (Scope.highest? "id" [·]) =
        [some "7", some "step", some "workflow", some "low"] ∧
      scope.lookup "id" = some "7" := by
  intro binding ambient workflow step scope layers
  have keyed : ∀ item, some binding = some item →
      ∃ promote, item.keys = Scope.loopKeys item.name promote := by
    rintro _ ⟨⟩
    exact ⟨true, rfl⟩
  have own : ∀ item, some binding = some item →
      Scope.isMarked (Text.trimmed item.name) = false := by
    rintro _ ⟨⟩
    decide +kernel
  rcases lookup_by_layers keyed
      (show Scope.isMarked (Text.trimmed "id") = false by decide +kernel) ambient
      workflow step with
    ⟨wins, highest, unbound⟩
  have same : scope.lookup "id" = Scope.highest? "id" layers :=
    highest (by decide +kernel) own
  exact ⟨wins.mp same, same, by decide +kernel⟩

/-- An ambient variable that is authored with the request's key of `id` hides the
`id` of the workflow. -/
theorem lookup_ne_highest_id :
    let ambient : Scope := .ofList [("vars.request.id", "ambient")]
    let workflow : Dictionary String := .ofList [("id", "workflow")]
    let scope :=
      (DispatchScope.build ambient (Scope.ofWorkflow workflow) .empty
        none).bindings
    scope.lookup "id" = some "ambient" ∧
      Scope.highest? "id"
          (Scope.layersOf ambient (Scope.ofWorkflow workflow) .empty none) =
        some "workflow" := by
  decide +kernel

end RequestFlow
