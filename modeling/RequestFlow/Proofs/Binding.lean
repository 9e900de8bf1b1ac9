import RequestFlow.Proofs.Agreement
import RequestFlow.Proofs.Compact

/-!
# Data that is bound as text

A scope holds texts only: a list or an object is bound as its text, and a
condition that is the name of the variable decodes the text again.  Main
statement: what was bound so is found again by its name, and every text that is
not that of a list or an object is found as it is.
-/

namespace RequestFlow

open Condition

/-! ## The text of a list or an object -/

namespace Json

theorem compact_tight {value : Json} (collection : value.IsCollection) :
    Starts value.compact ∧ Ends value.compact := by
  cases value with
  | array items =>
      rcases exists_compactItems items with ⟨front, last⟩
      rw [compact, last]
      exact ⟨⟨'[', _, rfl, rfl⟩, .of_last ('[' :: front) rfl⟩
  | object fields =>
      rcases exists_compactFields fields with ⟨front, last⟩
      rw [compact, last]
      exact ⟨⟨'{', _, rfl, rfl⟩, .of_last ('{' :: front) rfl⟩
  | _ => exact collection.elim

/-- The text of a list or an object is decoded to it. -/
theorem Plain.decode_text {depth : Nat} {value : Json} (plain : value.Plain depth)
    (shallow : depth < Reader.levelLimit) (collection : value.IsCollection) :
    decode value.text = .data value := by
  rcases compact_tight collection with ⟨starts, ends⟩
  have read : Json.read (Text.trim value.text.toList) = .ok value := by
    rw [text, String.toList_ofList, trim_of_tight starts ends]
    exact plain.read_compact shallow
  exact (decodes_iff.mp (.collection read collection)).symm

end Json

/-! ## Bare names -/

/-- A name alone, written neither like a number nor like a constant. -/
structure BareName where
  letters : List Char
  nonempty : letters ≠ []
  nameable : letters.all isNameCharacter = true
  named :
    letters.head? ≠ some '-' ∧
      letters.head?.all (fun first => !first.isDigit) = true
  unreserved : letters ≠ ['n', 'u', 'l', 'l'] ∧ letters ≠ ['t', 'r', 'u', 'e'] ∧
    letters ≠ ['f', 'a', 'l', 's', 'e']

namespace BareName

variable (name : BareName)

/-- The name as it is written. -/
def text : String :=
  String.ofList name.letters

/-- The name as a path. -/
def written : WrittenPath :=
  ⟨.ofLetters name.letters name.nonempty name.nameable, []⟩

@[simp] theorem text_written : name.written.text = name.letters := by
  simp [written, WrittenPath.text, WrittenSegment.text, WrittenSegment.ofLetters,
    bracketed, dotted]

/-- The name as a condition. -/
def path : VariablePath where
  written := name.written
  named := by
    intro first rest begins
    rw [text_written] at begins
    have named := name.named
    simpa [begins] using named
  unreserved := by
    rw [text_written]
    exact name.unreserved

theorem name_path : name.path.name = name.text := by
  rw [VariablePath.name, path, text_written, text]

theorem firstName_path : name.path.written.firstName = name.text := rfl

theorem isMarked_text : Scope.isMarked (Text.trimmed name.text) = false := by
  have whole : '.' ∉ (Text.trimmed name.text).toList := by
    intro member
    rw [Text.trimmed, String.toList_ofList, text, String.toList_ofList] at member
    cases List.all_eq_true.mp name.nameable '.'
      ((Text.trim_sublist _).subset member)
  have unmarked (start : String) (pointed : '.' ∈ start.toList) :
      Scope.beginsWith start (Text.trimmed name.text) = false := by
    rw [Scope.beginsWith, ← Bool.not_eq_true, Text.startsWith_iff]
    exact fun begins => whole (begins.subset pointed)
  rw [Scope.isMarked, unmarked _ (by decide), unmarked _ (by decide),
    Bool.or_false]

end BareName

/-! ## Binding -/

namespace Scope

/-- A key under which a bare name is looked up, and none that is looked at before
it is bound: the request's key, or that of the run. -/
def IsHighestKey (scope : Scope) (name key : String) : Prop :=
  key = requestKey name ∨
    (key = workflowKey name ∧ scope.get? (requestKey name) = none)

theorem lookup_insert {scope : Scope} {name key : String}
    (bare : isMarked (Text.trimmed name) = false)
    (highest : scope.IsHighestKey name key) (text : String) :
    Scope.lookup (scope.insert key text) name = some text := by
  rw [lookup_of_bare bare, aliases, findSome?_cons_eq_or]
  rcases highest with rfl | ⟨rfl, unbound⟩
  · rw [Dictionary.get?_insert, if_pos rfl, Option.some_or]
  · have other : requestKey name ≠ workflowKey name := by
      intro same
      have ofRun := isWorkflowKey_workflowKey name
      rw [← same, isWorkflowKey_requestKey] at ofRun
      cases ofRun
    rw [Dictionary.get?_insert, if_neg other, unbound, Option.none_or,
      findSome?_cons_eq_or, Dictionary.get?_insert, if_pos rfl, Option.some_or]

end Scope

/-- A bare name that no typed value has is a condition with the value that the
text stands for which is bound under the highest key of the name. -/
theorem BareName.evaluator_insert (name : BareName) {scope : Scope} {key : String}
    (highest : scope.IsHighestKey name.text key) (query : Query)
    (untyped : query.typed.get? name.text = none) (text : String) :
    evaluator { query with text := name.text, bindings := scope.insert key text } =
      .ok (decode text) := by
  have found :
      Scope.lookup (scope.insert key text) name.path.name = some text := by
    rw [name_path]
    exact Scope.lookup_insert name.isMarked_text highest text
  have asked :=
    name.path.evaluator_name { query with bindings := scope.insert key text }
  rw [name_path] at asked
  have untyped : query.typed.get? name.path.written.firstName = none := by
    rw [firstName_path]
    exact untyped
  have value :
      Setting.variableValue ⟨query.line, scope.insert key text, query.typed⟩
          name.path.written.text name.path.written.path = .ok (decode text) :=
    variableValue_of_untyped untyped found
  exact asked.trans value

/-- A list or an object whose numbers are integers, nested less than 128 levels
deep, is bound as its text under the key of the request or the run and found again
by its name; and every text that is not that of a list or an object is found as it
is. -/
theorem binding_read_back (name : BareName) {scope : Scope} {key : String}
    (highest : scope.IsHighestKey name.text key) (query : Query)
    (untyped : query.typed.get? name.text = none) :
    (∀ depth value, Json.Plain depth value → depth < 128 → value.IsCollection →
        ∃ text, (Value.data value).text = .ok text ∧
          evaluator
              { query with text := name.text, bindings := scope.insert key text } =
            .ok (.data value)) ∧
      ∀ text,
        (∀ value,
            Json.read (Text.trim text.toList) = .ok value → ¬ value.IsCollection) →
          evaluator
              { query with text := name.text, bindings := scope.insert key text } =
            .ok (.ofText text) := by
  constructor
  · intro depth value plain shallow collection
    have written : Value.dataText value = value.text := by
      cases value with
      | array items => rfl
      | object fields => rfl
      | _ => exact collection.elim
    refine ⟨value.text, congrArg Except.ok written, ?_⟩
    rw [name.evaluator_insert highest query untyped]
    exact congrArg Except.ok (plain.decode_text shallow collection)
  · intro text other
    rw [name.evaluator_insert highest query untyped]
    exact congrArg Except.ok (decodes_iff.mp (.text other)).symm

/-- The name `users`. -/
def usersName : BareName :=
  ⟨"users".toList, by decide, by decide, by decide, by decide⟩

/-- A list with a text that holds a quote and a line break, and a text that is cut
off, are bound for the run and read by the name. -/
theorem binding_read_back_usersName :
    let list : Json :=
      .array [.object [("id", .number (.integer (-7))), ("name", .string "a\"\n")]]
    let scope : Scope := .ofList [("users", "ambient")]
    let answer (text : String) := evaluator
      ⟨"", 1, .guard, 0, "users", scope.insert "vars.workflow.users" text, .empty⟩
    (∃ text, (Value.data list).text = .ok text ∧ answer text = .ok (.data list)) ∧
      answer "[\x7b\"id\":-7\x7d" = .ok (.ofText "[\x7b\"id\":-7\x7d") := by
  intro list scope answer
  have plain : list.Plain 2 := by
    refine .array (List.forall_mem_singleton.mpr (.object (by decide) ?_))
    exact List.forall_mem_cons.mpr
      ⟨.integer ⟨by decide, by decide⟩, List.forall_mem_singleton.mpr (.string _)⟩
  have highest : scope.IsHighestKey usersName.text "vars.workflow.users" := by
    right
    decide +kernel
  rcases binding_read_back usersName highest ⟨"", 1, .guard, 0, "", .empty, .empty⟩
      rfl with
    ⟨decoded, kept⟩
  have unread :
      (Json.read (Text.trim "[\x7b\"id\":-7\x7d".toList)).toOption = none := by
    decide +kernel
  refine ⟨decoded 2 list plain (by decide) trivial, kept _ ?_⟩
  intro value read
  rw [read] at unread
  cases unread

end RequestFlow
