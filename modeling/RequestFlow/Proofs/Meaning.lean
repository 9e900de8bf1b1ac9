import RequestFlow.Proofs.Occurrences
import RequestFlow.Proofs.Parsing

/-!
# The meaning of conditions

The tree of a phrase has the value that the phrase means, with the same operands
evaluated in the same order.  Main statement: the evaluator of the condition
language answers the text of every condition with the meaning of its phrase.
-/

namespace RequestFlow.Condition

open RequestFlow.Text

/-! ## Membership -/

/-- What the evaluator finds in a value is what belongs to it. -/
theorem includes_eq (collection item : Value) :
    includes collection item = membershipOf collection item := by
  cases collection with
  | data value =>
      cases value with
      | string whole => simp only [includes, membershipOf, contains_eq]
      | _ => rfl
  | host typeName => rfl
  | list items => rfl

/-! ## Operators -/

section Operators

variable (setting : Setting)

/-- Both sides of a comparison are evaluated, the left one first. -/
theorem evaluate_comparison (equal : Bool) (left right : Expression) :
    evaluate setting (.comparison equal left right) = (do
      let first ← evaluate setting left
      let second ← evaluate setting right
      return .ofBool (first.equals second == equal)) := by
  rw [evaluate]
  cases evaluate setting left with
  | error failure => rfl
  | ok first => cases evaluate setting right <;> rfl

/-- The collection is evaluated before the item that is looked for in it. -/
theorem evaluate_membership (collection item : Expression) :
    evaluate setting (.membership collection item) = (do
      let whole ← evaluate setting collection
      let part ← evaluate setting item
      includes whole part) := by
  rw [evaluate]
  cases evaluate setting collection with
  | error failure => rfl
  | ok whole => cases evaluate setting item <;> rfl

end Operators

/-! ## Chains -/

section Chains

variable (setting : Setting) (connective : Connective)

/-- The value of the operands of a chain. -/
def Connective.settle : List Expression → Except ValueError Value :=
  match connective with
  | or => anyTruthy setting
  | and => allTruthy setting

/-- The tree of a chain is evaluated by settling its operands in order. -/
theorem evaluate_tree (operands : List Expression) :
    evaluate setting (connective.tree operands) =
      connective.settle setting operands := by
  cases connective <;> rw [Connective.tree, evaluate] <;> rfl

theorem settle_nil :
    connective.settle setting [] = .ok (.ofBool !connective.decisive) := by
  cases connective
  · exact anyTruthy.eq_1 setting
  · exact allTruthy.eq_1 setting

/-- An operand is settled by its value if that is decisive, and otherwise by those
behind it. -/
theorem settle_cons (operand : Expression) (operands : List Expression) :
    connective.settle setting (operand :: operands) = (do
      let value ← evaluate setting operand
      if value.isTruthy = connective.decisive then
        return .ofBool connective.decisive
      else connective.settle setting operands) := by
  cases connective with
  | or =>
      simp only [Connective.settle, Connective.decisive]
      rw [anyTruthy]
      cases evaluate setting operand with
      | error failure => rfl
      | ok value => rfl
  | and =>
      simp only [Connective.settle, Connective.decisive]
      rw [allTruthy]
      cases evaluate setting operand with
      | error failure => rfl
      | ok value =>
          cases truth : value.isTruthy <;> simp [truth, bind, Except.bind]; rfl

end Chains

/-! ## Phrases -/

section Phrases

variable (setting : Setting)

theorem Literal.evaluate_expression (literal : Literal) :
    evaluate setting literal.expression = literal.meaning setting := by
  rw [Literal.expression, Literal.meaning]
  cases Json.read literal.text <;> rw [evaluate]

/-- The tree of a phrase has the value that the phrase means. -/
def Phrase.Evaluates {level : Level} (phrase : Phrase level) : Prop :=
  evaluate setting phrase.expression = phrase.meaning setting

/-- The operands of a chain settle on the truth of it. -/
def Phrase.Settles : {level : Level} → Phrase level → Prop
  | .chain connective, phrase =>
      connective.settle setting phrase.operands = (do
        let value ← phrase.meaning setting
        return .ofBool value.isTruthy)
  | _, _ => True

variable {setting} {connective : Connective}

theorem Phrase.Evaluates.settles_single {operand : Phrase connective.below}
    (evaluates : operand.Evaluates setting) :
    (Phrase.single operand).Settles setting := by
  rw [Phrase.Evaluates] at evaluates
  rw [Phrase.Settles, Phrase.operands, settle_cons, settle_nil, evaluates,
    Phrase.meaning]
  congr 1
  funext value
  -- A single operand settles a chain on its own truth, decisive or not.
  cases connective <;> cases truth : value.isTruthy <;> rfl

/-- Several operands settle on what their chain means, which is a truth value. -/
theorem settle_chained {first : Phrase connective.below} {before after : Blanks}
    {others : Phrase (.chain connective)} (evaluates : first.Evaluates setting)
    (settles : others.Settles setting) :
    connective.settle setting (Phrase.chained first before after others).operands =
      (Phrase.chained first before after others).meaning setting := by
  rw [Phrase.Evaluates] at evaluates
  rw [Phrase.Settles] at settles
  rw [Phrase.operands, settle_cons, evaluates, settles, Phrase.meaning]

/-- If the first operand and the rest of a chain evaluate as they mean, so does
the chain. -/
theorem Phrase.settles_chained {first : Phrase connective.below}
    {before after : Blanks} {others : Phrase (.chain connective)}
    (evaluates : first.Evaluates setting) (settles : others.Settles setting) :
    (Phrase.chained first before after others).Settles setting := by
  rw [Phrase.Settles, settle_chained evaluates settles, Phrase.meaning]
  cases first.meaning setting with
  | error failure => rfl
  | ok value =>
      simp only [bind, Except.bind]
      split
      · rfl
      · cases others.meaning setting <;> rfl

/-- By induction on the phrase: it evaluates to its meaning, and as the end of a
chain it settles the chain. -/
theorem Phrase.evaluates {level : Level} (phrase : Phrase level) :
    phrase.Evaluates setting ∧ phrase.Settles setting := by
  induction phrase with
  | single operand hypothesis => exact ⟨hypothesis.1, hypothesis.1.settles_single⟩
  | @chained connective first before after others left right =>
      refine ⟨?_, Phrase.settles_chained left.1 right.2⟩
      rw [Phrase.Evaluates, ← settle_chained left.1 right.2]
      exact evaluate_tree setting connective _
  | negation signs operand hypothesis =>
      refine ⟨?_, trivial⟩
      cases signs with
      | nil => exact hypothesis.1
      | cons blanks signs =>
          rw [Phrase.Evaluates, Phrase.expression, evaluate, hypothesis.1,
            Phrase.meaning]
          cases operand.meaning setting <;> rfl
  | uncompared side hypothesis => exact ⟨hypothesis.1, trivial⟩
  | compared equal left before after right first second =>
      refine ⟨?_, trivial⟩
      rw [Phrase.Evaluates, Phrase.expression, evaluate_comparison, first.1,
        second.1, Phrase.meaning]
  | plain operand hypothesis => exact ⟨hypothesis.1, trivial⟩
  | member collection before after item last whole part =>
      refine ⟨?_, trivial⟩
      rw [Phrase.Evaluates, Phrase.expression, evaluate_membership, whole.1,
        part.1, Phrase.meaning]
      simp only [includes_eq]
  | wrapped before content after hypothesis => exact ⟨hypothesis.1, trivial⟩
  | data literal => exact ⟨literal.evaluate_expression setting, trivial⟩
  | quoted quotation =>
      exact ⟨by rw [Phrase.Evaluates, Phrase.expression, evaluate]; rfl, trivial⟩
  | variableAt reference =>
      exact ⟨by rw [Phrase.Evaluates, Phrase.expression, evaluate]; rfl, trivial⟩

end Phrases

/-! ## Conditions -/

/-- The evaluator answers the text of a condition with the meaning of its phrase,
under any bindings and typed values, be that a value or an error. -/
theorem evaluator_sentence (query : Query) (sentence : Sentence) :
    evaluator { query with text := String.ofList sentence.text } =
      sentence.phrase.meaning ⟨query.line, query.bindings, query.typed⟩ := by
  rw [evaluator, sentence.read_text]
  exact sentence.phrase.evaluates.1

/-- A negation is one of the whole comparison behind it. -/
example (setting : Setting) :
    let letter (character : Char)
        (plain : isPlain character = true ∧ character ≠ '"') :
        Phrase .membership :=
      .plain (.quoted ⟨[character], List.forall_mem_singleton.mpr plain⟩)
    let space : Blanks := ⟨[' '], List.forall_mem_singleton.mpr rfl⟩
    let phrase : Phrase .negation :=
      .negation [space]
        (.compared true (letter 'a' (by decide)) space space
          (letter 'b' (by decide)))
    phrase.text = "! 'a' == 'b'".toList ∧
      phrase.meaning setting = .ok (.ofBool true) :=
  ⟨by decide, rfl⟩

end RequestFlow.Condition
