import RequestFlow.Proofs.Judging
import RequestFlow.Proofs.Precedence

/-!
# Items under the name of a loop variable

An item is bound under keys that are made from the name of its loop variable, and
a name that has a marker is looked up as it stands.  What is meant is that the
name is always read as the text of the item. Main statement: it is if the name is
bare, and in a loop that promotes its items also if it is a name of the run, over
any layers and in each request that is sent for an item.  In a loop that does not
promote its items a name of the run is not bound to them and keeps the value of
the layers below.
-/

namespace RequestFlow

open Condition

namespace Scope

/-! ## Names that are read -/

variable {name text : String} {scope : Scope}

/-- A loop variable of this name is read in any layers: the name is bare, or it is
a name of the run in a loop that promotes its items. -/
def Readable (name : String) (promote : Bool) : Prop :=
  isMarked (Text.trimmed name) = false ∨
    (promote = true ∧ isWorkflowKey (Text.trimmed name) = true)

instance (name : String) (promote : Bool) : Decidable (Readable name promote) :=
  inferInstanceAs (Decidable (_ ∨ _))

/-- The name has the text for its value, and every marker of the name in a
template is replaced by it. -/
structure Reads (scope : Scope) (name text : String) : Prop where
  value : scope.lookup name = some text
  filled : ∀ inner, Text.trimmed (String.ofList inner) = Text.trimmed name →
    (Template.Segment.marker inner).fill scope = text.toList

theorem reads_of_lookup (found : scope.lookup name = some text) :
    scope.Reads name text := by
  refine ⟨found, ?_⟩
  intro inner same
  have there : scope.lookup (String.ofList inner) = some text := by
    rw [← lookup_trimmed, same, lookup_trimmed]
    exact found
  rw [Template.Segment.fill, there]

theorem lookup_of_marked (marked : isMarked (Text.trimmed name) = true)
    (scope : Scope) : scope.lookup name = scope.get? (Text.trimmed name) := by
  rw [lookup]
  exact if_pos marked

/-- A name that is read has the text that all keys of the loop have. -/
theorem reads_of_loopKeys {promote : Bool} (readable : Readable name promote)
    (bound : ∀ key ∈ loopKeys name promote, scope.get? key = some text) :
    scope.Reads name text := by
  apply reads_of_lookup
  rcases readable with bare | ⟨rfl, ofRun⟩
  · have first : requestKey name ∈ loopKeys name promote := by
      cases promote <;> exact List.mem_cons_self
    rw [lookup_of_bare bare, aliases, findSome?_cons_eq_or, bound _ first,
      Option.some_or]
  · -- The run's key of a name of the run is the name.
    have same : workflowKey name = Text.trimmed name := if_pos ofRun
    rw [lookup_of_marked (isMarked_of_isWorkflowKey ofRun), ← same]
    exact bound _ (List.mem_cons_of_mem _ List.mem_cons_self)

/-! ## An item in its layers -/

/-- An item, bound under the keys of its loop variable. -/
def itemOf (name : String) (promote : Bool) (text : String) (item : Value) :
    LoopBinding :=
  ⟨name, loopKeys name promote, text, item⟩

section Layers

variable (ambient workflow : Scope) (step : Dictionary String) (item : Value)

/-- The name is read in a dispatch, and where the variables of its step are
filled. -/
theorem reads_itemOf {promote : Bool} (readable : Readable name promote) :
    let binding := some (itemOf name promote text item)
    (DispatchScope.build ambient workflow step binding).bindings.Reads name text ∧
      (around ambient workflow binding).Reads name text := by
  intro binding
  have there (key : String) (member : key ∈ loopKeys name promote) :
      LoopBinding.textAt? binding key = some text :=
    LoopBinding.textAt?_eq_some_iff.mpr ⟨_, rfl, member, rfl⟩
  constructor
  · refine reads_of_loopKeys readable ?_
    intro key member
    rw [get?_build, there key member, Option.some_or]
  · refine reads_of_loopKeys readable ?_
    intro key member
    rw [get?_around, there key member, Option.some_or]

/-- A name that is not read is none of the keys that the item is bound under. -/
theorem not_mem_loopKeys {promote : Bool} (unreadable : ¬ Readable name promote) :
    Text.trimmed name ∉ loopKeys name promote := by
  have longer {start : String} (there : start ≠ "") :
      Text.trimmed name ≠ start ++ Text.trimmed name := by
    intro same
    have length := congrArg String.length same
    rw [String.length_append, Nat.right_eq_add] at length
    exact there (String.length_eq_zero_iff.mp length)
  intro member
  cases promote with
  | false => exact longer (by decide) (List.mem_singleton.mp member)
  | true =>
      rcases List.mem_cons.mp member with same | member
      · exact longer (by decide) same
      · have same := List.mem_singleton.mp member
        have foreign : isWorkflowKey (Text.trimmed name) = false :=
          Bool.eq_false_iff.mpr fun ofRun => unreadable (.inr ⟨rfl, ofRun⟩)
        rw [workflowKey_of_foreign foreign] at same
        exact longer (by decide) same

/-- A name that is not read has the value of the layers below the item. -/
theorem lookup_build_of_unreadable {promote : Bool}
    (unreadable : ¬ Readable name promote) :
    let binding := some (itemOf name promote text item)
    let own := Text.trimmed name
    (DispatchScope.build ambient workflow step binding).bindings.lookup name =
      (declared? (around ambient workflow binding) step own).or
        ((workflow.get? own).or (ambient.get? own)) := by
  intro binding own
  have marked : isMarked own = true :=
    (Bool.not_eq_false _).mp fun bare => unreadable (.inl bare)
  have absent : LoopBinding.textAt? binding own = none :=
    if_neg (not_mem_loopKeys unreadable)
  rw [lookup_of_marked marked, get?_build, absent, Option.none_or]

end Layers

end Scope

/-! ## Requests that are sent for items -/

/-- What is sent in a loop is sent for one of its items, and reads the name of the
loop variable, where it is read at all, as the text of this item. -/
def Act.ReadsItem (request : RunRequest) (resolved : ResolvedWorkflow)
    (evaluator : Evaluator) (before : Log) : Act → Prop
  | sent dispatch =>
      ∃ definition template,
        dispatch.InScope request resolved evaluator before definition template ∧
          ∀ loop, definition.sendingLoop template = some loop →
            ∃ items index item text,
              dispatch.ForItem request resolved evaluator before
                  (definition.sendingGuard template) loop items index item ∧
                item.text = .ok text ∧
                (Scope.Readable loop.name request.origin.promotes →
                  dispatch.bindings.Reads loop.name text)
  | _ => True

theorem Act.Upholds.readsItem {request : RunRequest} {resolved : ResolvedWorkflow}
    {evaluator : Evaluator} {before : Log} {act : Act}
    (upholds : Act.Upholds request resolved evaluator before act) :
    Act.ReadsItem request resolved evaluator before act := by
  cases act with
  | noted note => trivial
  | recorded result => trivial
  | sent dispatch =>
      rcases upholds with ⟨definition, template, inScope⟩
      refine ⟨definition, template, inScope, ?_⟩
      intro loop sending
      rcases inScope.inLoop loop sending with ⟨items, index, item, sent⟩
      rcases sent.bound with ⟨text, converted, bound⟩
      exact ⟨items, index, item, text, sent, converted,
        fun readable => Scope.reads_of_loopKeys readable bound⟩

/-- Whatever the calls are that serve a run, and whatever the layers below an
item: the name of a loop variable is read as the text of the item if it is bare,
or if it is a name of the run and items are promoted.  Where items are not
promoted a name of the run keeps the value of the layers below. -/
theorem Engine.items_read_by_name {engine : Engine} {request : RunRequest}
    {resolved : ResolvedWorkflow} (free : engine.run = none)
    (resolves : request.workflow.resolve request.document = .ok resolved)
    (evaluator : Evaluator) (now : Int) {calls : List Call}
    (alone :
      (engine.serve evaluator (.start request now :: calls)).past.tail.any
          launches = false) :
    (engine.serve evaluator (.start request now :: calls)).log.Each
        (Act.ReadsItem request resolved evaluator) ∧
      ∀ (name : String) (promote : Bool) (ambient workflow : Scope)
          (step : Dictionary String) (item : Value) (text : String),
        item.text = .ok text →
        let binding := some (Scope.itemOf name promote text item)
        let scope := (DispatchScope.build ambient workflow step binding).bindings
        let around := Scope.around ambient workflow binding
        let own := Text.trimmed name
        (Scope.Readable name promote →
          scope.Reads name text ∧ around.Reads name text) ∧
        (promote = false → Scope.isWorkflowKey own = true →
          scope.lookup name =
            (Scope.declared? around step own).or
              ((workflow.get? own).or (ambient.get? own))) := by
  constructor
  · have begins : Run.Begins request (engine.beginRun request resolved now) :=
      .beginRun resolves now
    rcases (serves_run free resolves evaluator now alone).reached with
      ⟨run, stage, reached⟩
    have acts := (reached.upholds begins).acts
    rw [reached.workflow_eq] at acts
    intro before act since split
    exact (acts before act since split).readsItem
  · intro name promote ambient workflow step item text _ binding scope around own
    refine ⟨Scope.reads_itemOf ambient workflow step item, ?_⟩
    rintro rfl ofRun
    refine Scope.lookup_build_of_unreadable ambient workflow step item ?_
    rintro (bare | ⟨⟨⟩, _⟩)
    cases bare.symm.trans (Scope.isMarked_of_isWorkflowKey ofRun)

/-- Two users are asked for by a bare name, and by a name of the run an item is
read over what the step declares under it. -/
theorem items_read_by_name_askByName :
    let calls : List Call :=
      [.respond ⟨1, 1⟩ (.completed .blank) 1,
        .respond ⟨1, 2⟩ (.completed { Snapshot.blank with status := "TRUE" }) 2]
    let log := (Engine.idle.serve twoUsers (.start askByName 0 :: calls)).log
    let step : Dictionary String := .ofList [("vars.workflow.id", "mine")]
    let item : Value := .data (.number (.integer 7))
    (∃ resolved, log.Each (Act.ReadsItem askByName resolved twoUsers)) ∧
      Scope.Readable "user" askByName.origin.promotes ∧
      log.dispatches.map (fun dispatch => dispatch.bindings.lookup "user") =
        [none, some "true", some "false"] ∧
      (DispatchScope.build .empty .empty step
        (some (Scope.itemOf "vars.workflow.id" true "7" item))).bindings.Reads
          "vars.workflow.id" "7" := by
  intro calls log step item
  rcases Engine.items_read_by_name (rfl : Engine.idle.run = none)
      (rfl : askByName.workflow.resolve askByName.document = .ok _) twoUsers 0
      (show
        (Engine.idle.serve twoUsers (.start askByName 0 :: calls)).past.tail.any
        launches = false by
        decide +kernel) with
    ⟨acts, layers⟩
  have reads :=
    (layers "vars.workflow.id" true .empty .empty step item "7"
      (by decide +kernel)).1
  exact ⟨⟨_, acts⟩, by decide +kernel, by decide +kernel,
    (reads (by decide +kernel)).1⟩

/-- An item that is not promoted is not read by a name of the run, and no item is
by a name of the request or of the process. -/
theorem item_unread_by_marked_name :
    let item : Value := .data (.number (.integer 7))
    let scope (name : String) (promote : Bool) : Scope :=
      (DispatchScope.build .empty .empty .empty
        (some (Scope.itemOf name promote "7" item))).bindings
    item.text = .ok "7" ∧
      (scope "vars.workflow.id" false).lookup "vars.workflow.id" = none ∧
      (scope "vars.request.id" true).lookup "vars.request.id" = none ∧
      (scope "env.ID" true).lookup "env.ID" = none := by
  decide +kernel

end RequestFlow
