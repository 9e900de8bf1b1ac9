import RequestFlow.Proofs.Decoding
import RequestFlow.Proofs.Layering
import RequestFlow.Proofs.Markers
import RequestFlow.Proofs.Meaning
import RequestFlow.Proofs.Navigation

/-!
# Names in templates and in conditions

A template knows a variable by its whole name, and a condition asks first for a
loop item under the name that its path begins with.  Main statement: a condition
that is the path to a variable with a text has the value that the text stands for,
unless the path begins with the name of the loop variable; then it has the value
within the item to which the path leads.
-/

namespace RequestFlow

namespace Condition

/-! ## Paths as conditions -/

/-- A path that is written neither like a number nor like a constant. -/
structure VariablePath where
  written : WrittenPath
  named : ∀ character rest, written.text = character :: rest →
    character ≠ '-' ∧ character.isDigit = false
  unreserved :
    written.text ≠ ['n', 'u', 'l', 'l'] ∧ written.text ≠ ['t', 'r', 'u', 'e'] ∧
      written.text ≠ ['f', 'a', 'l', 's', 'e']

namespace VariablePath

variable (sought : VariablePath)

/-- The name of the variable: the whole text of the path. -/
def name : String :=
  String.ofList sought.written.text

/-- The path as a part of a condition. -/
def reference : Reference where
  text := sought.written.text
  path := sought.written.path
  read := WrittenPath.ofText?_eq_some_iff.mpr ⟨sought.written, rfl, rfl⟩
  named := sought.named
  unreserved := sought.unreserved

/-- The condition that is the path alone. -/
def sentence : Sentence :=
  let operand : Phrase (.chain .and) :=
    .single (.negation [] (.uncompared (.plain (.variableAt sought.reference))))
  .bare .none (.single operand) .none

theorem evaluator_name (query : Query) :
    evaluator { query with text := sought.name } =
      Setting.variableValue ⟨query.line, query.bindings, query.typed⟩
        sought.written.text sought.written.path := by
  have text : String.ofList sought.sentence.text = sought.name :=
    congrArg String.ofList (List.append_nil _)
  rw [← text, evaluator_sentence]
  simp only [sentence, Sentence.phrase, Phrase.meaning, reference]

end VariablePath

/-! ## Values of variables -/

section Values

variable {setting : Setting} {sought : VariablePath}

theorem variableValue_of_typed {item : Json}
    (typed : setting.typed.get? sought.written.firstName = some (.data item)) :
    setting.variableValue sought.written.text sought.written.path =
      .ok (.data (sought.written.path.follow item)) := by
  have same :
      sought.written.firstName = String.ofList sought.written.path.head.name :=
    rfl
  rw [Setting.variableValue, ← same, typed]

theorem variableValue_of_untyped {text : String}
    (untyped : setting.typed.get? sought.written.firstName = none)
    (found : setting.bindings.lookup sought.name = some text) :
    setting.variableValue sought.written.text sought.written.path =
      .ok (decode text) := by
  have same :
      sought.written.firstName = String.ofList sought.written.path.head.name :=
    rfl
  have name : sought.name = String.ofList sought.written.text := rfl
  rw [Setting.variableValue, ← same, untyped, ← name, found]

end Values

end Condition

namespace DispatchScope

theorem get?_typedLayer_of_name {bound : LoopBinding} {name : String}
    (same : bound.name = name) :
    (typedLayer (some bound)).get? name = some bound.item :=
  if_pos same

theorem get?_typedLayer_of_other {binding : Option LoopBinding} {name : String}
    (other : ∀ bound, binding = some bound → bound.name ≠ name) :
    (typedLayer binding).get? name = none := by
  cases binding with
  | none => rfl
  | some bound => exact if_neg (other bound rfl)

end DispatchScope

/-! ## Names in templates -/

namespace Template

/-- The marker of a path to a variable is replaced by the text of the variable. -/
theorem fill_marker {scope : Scope} {sought : Condition.VariablePath}
    {text : String} (found : scope.lookup sought.name = some text) :
    fill scope (String.ofList (opening ++ sought.written.text ++ closing)) =
      text := by
  have unclosed : '}' ∉ sought.written.text := by
    intro member
    cases sought.written.characters '}' member
  have opened : Text.cut opening (opening ++ sought.written.text ++ closing) =
      some ([], sought.written.text ++ closing) := by
    rw [List.append_assoc]
    exact Text.PassedBy.nil.cut_append _
  have closed : Text.cut closing (sought.written.text ++ closing) =
      some (sought.written.text, []) := by
    rw [← List.append_nil (sought.written.text ++ closing)]
    exact (Text.PassedBy.of_not_mem unclosed).cut_append []
  have named :
      scope.lookup (Text.trimmed (String.ofList sought.written.text)) =
        some text := by
    rw [Scope.lookup_trimmed]
    exact found
  apply String.toList_injective
  rw [toList_fill, String.toList_ofList, replaced_of_marked opened closed,
    Segment.put_of_named named, replaced_of_unopened rfl, List.nil_append,
    List.append_nil]

end Template

/-! ## Agreement -/

open Condition in
/-- In a dispatch a marker of a variable with a text is replaced by the text.  The
path to the variable as a condition has the value within the loop item to which it
leads if it begins with the name of the loop variable, and that is the item itself
if it is the name.  If it does not begin with the name and is not the name, it has
the value that the text stands for. -/
theorem names_agree {ambient workflow : Scope} {step : Dictionary String}
    {binding : Option LoopBinding} (sought : VariablePath) {text : String}
    (found :
      (DispatchScope.build ambient workflow step binding).bindings.lookup
          sought.name = some text)
    (query : Query) :
    let dispatch := DispatchScope.build ambient workflow step binding
    let marker :=
      String.ofList (Template.opening ++ sought.written.text ++ Template.closing)
    let answer :=
      evaluator
        { query with
          text := sought.name
          bindings := dispatch.bindings
          typed := dispatch.typed }
    Template.fill dispatch.bindings marker = text ∧
    (∀ bound item, binding = some bound → bound.item = .data item →
      bound.name = sought.written.firstName →
      (bound.name = sought.name → answer = .ok (.data item)) ∧
        (sought.written.IsWithin →
          ∃ target, Arrives item sought.written.moves target ∧
            answer = .ok (.data target))) ∧
    ((∀ bound, binding = some bound →
        bound.name ≠ sought.written.firstName ∧
          Text.trimmed bound.name ≠ sought.name) →
      ∃ value, Decodes text value ∧ answer = .ok value) := by
  intro dispatch marker answer
  have asked :
      answer =
        Setting.variableValue ⟨query.line, dispatch.bindings, dispatch.typed⟩
          sought.written.text sought.written.path :=
    sought.evaluator_name
      { query with bindings := dispatch.bindings, typed := dispatch.typed }
  refine ⟨Template.fill_marker found, ?_, ?_⟩
  -- The typed values are asked first, by the first name of the path and not by
  -- the whole.
  · rintro bound item rfl data first
    have typed :
        dispatch.typed.get? sought.written.firstName = some (.data item) := by
      rw [← data]
      exact DispatchScope.get?_typedLayer_of_name first
    rw [asked, variableValue_of_typed typed]
    constructor
    · intro whole
      rw [WrittenPath.path_of_text_eq (whole.symm.trans first)]
      rfl
    · intro within
      exact ⟨_, (WrittenPath.arrives_iff_follow within).mpr rfl, rfl⟩
  · intro other
    have untyped : dispatch.typed.get? sought.written.firstName = none :=
      DispatchScope.get?_typedLayer_of_other fun bound present =>
        (other bound present).1
    refine ⟨decode text, decodes_decode text, ?_⟩
    rw [asked]
    exact variableValue_of_untyped untyped found

/-- The path `item.id`. -/
def itemId : Condition.VariablePath :=
  ⟨⟨.ofLetters "item".toList (by decide) (by decide),
      [.ofLetters "id".toList (by decide) (by decide)]⟩,
    by rintro _ _ ⟨⟩; decide, by decide⟩

/-- In a loop over `item` the path `item.id` leads into the item, also where a
variable has this name, and `users` stands for the list that it writes. -/
theorem names_agree_itemId :
    let item : Json := .object [("id", .number (.integer 7))]
    let binding : LoopBinding :=
      ⟨"item", Scope.loopKeys "item" false, item.text, .data item⟩
    let step : Dictionary String :=
      .ofList [("item.id", "mine"), ("users", " [1] ")]
    let dispatch := DispatchScope.build .empty .empty step (some binding)
    let answer (name : String) := Condition.evaluator
      ⟨"", 1, .guard, 0, name, dispatch.bindings, dispatch.typed⟩
    Template.fill dispatch.bindings "\x7b\x7bitem.id\x7d\x7d" = "mine" ∧
      answer "item.id" = .ok (.data (.number (.integer 7))) ∧
      Template.fill dispatch.bindings "\x7b\x7busers\x7d\x7d" = " [1] " ∧
      answer "users" = .ok (.data (.array [.number (.integer 1)])) := by
  intro item binding step dispatch answer
  let users : Condition.VariablePath :=
    ⟨⟨.ofLetters "users".toList (by decide) (by decide), []⟩,
      by rintro _ _ ⟨⟩; decide, by decide⟩
  let query : Condition.Query :=
    ⟨"", 1, .guard, 0, "", dispatch.bindings, dispatch.typed⟩
  rcases names_agree itemId
    (show dispatch.bindings.lookup itemId.name = some "mine" by
    decide +kernel) query with ⟨filled, inside, -⟩
  rcases names_agree users
    (show dispatch.bindings.lookup users.name = some " [1] " by
    decide +kernel) query with ⟨put, -, outside⟩
  have within : itemId.written.IsWithin :=
    List.forall_mem_cons.mpr ⟨List.forall_mem_nil _,
      List.forall_mem_singleton.mpr (List.forall_mem_nil _)⟩
  rcases (inside binding item rfl rfl rfl).2 within with ⟨target, arrives, led⟩
  rcases outside (by rintro _ ⟨⟩; decide +kernel) with ⟨value, decodes, decoded⟩
  rw [Condition.arrives_iff.mp arrives] at led
  rw [Condition.decodes_iff.mp decodes] at decoded
  exact ⟨filled, led, put, decoded⟩

/-- The variable `item.id` has a text, but as a condition its name has a value of
the loop item, and that is not what the text stands for. -/
theorem text_unread_itemId :
    let item : Json := .object [("id", .number (.integer 7))]
    let binding : LoopBinding :=
      ⟨"item", Scope.loopKeys "item" false, item.text, .data item⟩
    let step : Dictionary String := .ofList [("item.id", "mine")]
    let dispatch := DispatchScope.build .empty .empty step (some binding)
    let answer := Condition.evaluator
      ⟨"", 1, .guard, 0, "item.id", dispatch.bindings, dispatch.typed⟩
    binding.name ≠ "item.id" ∧ dispatch.bindings.lookup "item.id" = some "mine" ∧
      answer = .ok (.data (.number (.integer 7))) ∧
      ∀ value, Condition.Decodes "mine" value → answer ≠ .ok value := by
  intro item binding step dispatch answer
  have read : answer = .ok (.data (.number (.integer 7))) :=
    itemId.evaluator_name ⟨"", 1, .guard, 0, "", dispatch.bindings, dispatch.typed⟩
  refine ⟨by decide, by decide +kernel, read, ?_⟩
  intro value decodes same
  rw [Condition.decodes_iff.mp decodes] at same
  cases read.symm.trans same

end RequestFlow
