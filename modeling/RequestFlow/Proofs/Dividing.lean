import RequestFlow.Proofs.Exposure
import RequestFlow.Proofs.Meaning

/-!
# Where texts are divided

A text that begins with an operand and no negation is divided at an operator, or
there is none in it but maybe a dangling one at its end.  Main statements: a text
comes apart at a connective exactly if something follows the connective; what is
divided has a value only if its first part has one; and what is not divided is
read as a text in parentheses or as a leaf.
-/

namespace RequestFlow.Condition

open RequestFlow.Text

section Divisions

variable {text before rest : List Char}

theorem ofText_trim (source : List Char) :
    Expression.ofText (trim source) = Expression.ofText source := by
  rw [Expression.ofText_eq, trim_trim, ← Expression.ofText_eq]

/-! ## Chains -/

theorem partsAt_ne_nil (operator : List Char) (nonempty : text ≠ [])
    (steps : Nat) : partsAt operator (steps + 1) text ≠ [] := by
  rw [partsAt_succ nonempty]
  split <;> exact List.cons_ne_nil _ _

/-- A text comes apart at an operator that something follows. -/
theorem several_iff {operator : List Char} (nonempty : text ≠ []) :
    2 ≤ (partsAt operator (text.length + 1) text).length ↔
      ∃ before rest, cutAt operator text = some (before, rest) ∧ rest ≠ [] := by
  rw [partsAt_succ nonempty]
  cases found : cutAt operator text with
  | none => simp
  | some parts =>
      rcases parts with ⟨before, rest⟩
      obtain ⟨steps, enough⟩ : ∃ steps, text.length = steps + 1 :=
        Nat.exists_eq_succ_of_ne_zero fun none =>
          nonempty (List.length_eq_zero_iff.mp none)
      rw [enough]
      cases rest with
      | nil => simp [partsAt]
      | cons character rest =>
          have later :=
            partsAt_ne_nil operator (List.cons_ne_nil character rest) steps
          exact iff_of_true (Nat.succ_le_succ (List.length_pos_iff.mpr later))
            ⟨before, _, rfl, List.cons_ne_nil character rest⟩

variable {setting : Setting} {value : Value}

/-- What has a value has one for its first operand. -/
theorem exists_first {first : Except ValueError Value}
    {others : Value → Except ValueError Value}
    (evaluated : (first >>= others) = .ok value) : ∃ found, first = .ok found := by
  cases first with
  | error failure => cases evaluated
  | ok found => exact ⟨found, rfl⟩

/-- The value of the operands into which a text comes apart. -/
def Connective.settleText (connective : Connective) (setting : Setting)
    (steps : Nat) (text : List Char) : Except ValueError Value :=
  connective.settle setting
    ((partsAt connective.operator steps text).map Expression.ofText)

/-- A chain is settled by the operand in front of its first operator, or else by
what is behind. -/
theorem settleText_of_cut (connective : Connective) (nonempty : text ≠ [])
    (cutting : cutAt connective.operator text = some (before, rest))
    (setting : Setting) (steps : Nat) :
    connective.settleText setting (steps + 1) text = (do
      let value ← evaluate setting (Expression.ofText before)
      if value.isTruthy = connective.decisive then
        return .ofBool connective.decisive
      else connective.settleText setting steps rest) := by
  rw [Connective.settleText, partsAt_succ nonempty, cutting]
  dsimp only
  rw [List.map_cons, settle_cons, ofText_trim]
  rfl

/-- A last operand without a value fails the chain. -/
theorem settleText_of_uncut (connective : Connective) (nonempty : text ≠ [])
    (uncut : cutAt connective.operator text = none) {failure : ValueError}
    (failed : evaluate setting (Expression.ofText text) = .error failure)
    (steps : Nat) :
    connective.settleText setting (steps + 1) text = .error failure := by
  rw [Connective.settleText, partsAt_succ nonempty, uncut]
  dsimp only
  rw [List.map_singleton, settle_cons, ofText_trim, failed]
  rfl

/-- If a chain has a value, so has its first operand, for that is evaluated in any
case. -/
theorem first_of_chain {connective : Connective} (nonempty : text ≠ [])
    (cutting : cutAt connective.operator text = some (before, rest))
    (evaluated :
      connective.settleText setting (text.length + 1) text = .ok value) :
    ∃ first, evaluate setting (Expression.ofText before) = .ok first := by
  rw [settleText_of_cut connective nonempty cutting] at evaluated
  exact exists_first evaluated

/-- If a comparison has a value, so has its left side. -/
theorem first_of_comparison {equal : Bool} {right : List Char}
    (compared : comparison? text = some (equal, trim before, right))
    (evaluated : evaluate setting (Expression.ofUnsigned text) = .ok value) :
    ∃ first, evaluate setting (Expression.ofText before) = .ok first := by
  rw [Expression.ofUnsigned, compared] at evaluated
  dsimp only at evaluated
  split at evaluated
  · rw [evaluate] at evaluated
    cases evaluated
  · rw [evaluate_comparison, ofText_trim] at evaluated
    exact exists_first evaluated

/-- If a membership has a value, so has its collection. -/
theorem first_of_membership {item : Option (List Char)}
    (tested : membership? text = some (before, item))
    (evaluated : evaluate setting (Expression.ofUncompared text) = .ok value) :
    ∃ first, evaluate setting (Expression.ofText before) = .ok first := by
  rw [Expression.ofUncompared, tested] at evaluated
  cases item with
  | none =>
      rw [evaluate] at evaluated
      cases evaluated
  | some item =>
      dsimp only at evaluated
      split at evaluated
      · rw [evaluate] at evaluated
        cases evaluated
      · rw [evaluate_membership] at evaluated
        exact exists_first evaluated

/-! ## The first step of reading -/

/-- A text is divided at an operator, and if it has a value then so has what
stands in front of that. -/
structure Splits (text before : List Char) : Prop where
  cutting :
    ∃ operator ∈ operators, ∃ rest, cutAt operator text = some (before, rest)
  first :
    ∀ setting value, evaluate setting (Expression.ofTrimmed text) = .ok value →
      ∃ first, evaluate setting (Expression.ofText before) = .ok first

/-- No operator is exposed in the text, but maybe one at its very end. -/
def Whole (text : List Char) : Prop :=
  ∀ operator ∈ operators, ∀ before rest,
    cutAt operator text = some (before, rest) → rest = []

/-- The tree of a text that is divided at no operator. -/
def Expression.ofUndivided (text : List Char) : Expression :=
  match unwrap? text with
  | some content => ofText content
  | none => readLeaf text

/-- An operand in front has no signs to be taken off. -/
theorem Begins.dropNegations_eq (begins : Begins beginsOperand text)
    (steps : Nat) : dropNegations steps text = (0, text) :=
  dropNegations_signs [] begins (Nat.zero_le _) .none

/-- A text that comes apart at no connective has no operands but itself. -/
theorem ofTrimmed_of_unchained (nonempty : text ≠ [])
    (unchained : ∀ connective : Connective, ∀ before rest,
        cutAt connective.operator text = some (before, rest) → rest = []) :
    Expression.ofTrimmed text =
      Expression.ofSigned (dropNegations text.length text) := by
  have joined (connective : Connective) :
      ¬ 2 ≤ (partsAt connective.operator (text.length + 1) text).length := by
    rw [several_iff nonempty]
    rintro ⟨before, rest, cutting, some⟩
    exact some (unchained connective before rest cutting)
  have or : ¬ 2 ≤ (partsAt orOperator (text.length + 1) text).length := joined .or
  have and : ¬ 2 ≤ (partsAt andOperator (text.length + 1) text).length :=
    joined .and
  rw [Expression.ofTrimmed, List.isEmpty_eq_false_iff.mpr nonempty,
    if_neg Bool.false_ne_true, if_neg or, if_neg and]

/-- A text that comes apart at a connective, and at no looser one, is a chain. -/
theorem ofTrimmed_of_several (connective : Connective) (nonempty : text ≠ [])
    (looser :
      connective = .and → ¬ 2 ≤ (partsAt orOperator (text.length + 1) text).length)
    (several : 2 ≤ (partsAt connective.operator (text.length + 1) text).length) :
    Expression.ofTrimmed text =
      connective.tree
        ((partsAt connective.operator (text.length + 1) text).map
          Expression.ofText) := by
  rw [Expression.ofTrimmed, List.isEmpty_eq_false_iff.mpr nonempty,
    if_neg Bool.false_ne_true]
  cases connective with
  | or => exact if_pos several
  | and =>
      rw [if_neg (looser rfl)]
      exact if_pos several

/-- A text that is cut at the operator of a connective splits there. -/
theorem splits_of_chain (connective : Connective) (nonempty : text ≠ [])
    (cutting : cutAt connective.operator text = some (before, rest))
    (chained :
      Expression.ofTrimmed text =
        connective.tree
          ((partsAt connective.operator (text.length + 1) text).map
            Expression.ofText)) : Splits text before := by
  refine ⟨⟨connective.operator, by cases connective <;> decide, rest, cutting⟩, ?_⟩
  intro setting value evaluated
  rw [chained, evaluate_tree] at evaluated
  exact first_of_chain nonempty cutting evaluated

/-- A text that begins with an operand splits at a connective, or is read without
one. -/
theorem splits_or_unchained (begins : Begins beginsOperand text) :
    (∃ before, Splits text before) ∨
      ((∀ connective : Connective, ∀ before rest,
          cutAt connective.operator text = some (before, rest) → rest = []) ∧
        Expression.ofTrimmed text = Expression.ofUnsigned text) := by
  have starts := begins.starts fun _ => isBlank_of_beginsOperand
  have nonempty := starts.ne_nil
  by_cases or :
      ∃ before rest, cutAt orOperator text = some (before, rest) ∧ rest ≠ []
  · have several := (several_iff nonempty).mpr or
    rcases or with ⟨before, rest, cutting, -⟩
    have chained := ofTrimmed_of_several .or nonempty nofun several
    exact .inl ⟨before, splits_of_chain .or nonempty cutting chained⟩
  · have joined := mt (several_iff nonempty).mp or
    by_cases and :
        ∃ before rest, cutAt andOperator text = some (before, rest) ∧ rest ≠ []
    · have several := (several_iff nonempty).mpr and
      rcases and with ⟨before, rest, cutting, -⟩
      have chained := ofTrimmed_of_several .and nonempty (fun _ => joined) several
      exact .inl ⟨before, splits_of_chain .and nonempty cutting chained⟩
    · simp only [not_exists, not_and, not_not] at or and
      have unchained (connective : Connective) : ∀ before rest,
          cutAt connective.operator text = some (before, rest) → rest = [] := by
        cases connective with
        | or => exact or
        | and => exact and
      refine .inr ⟨unchained, ?_⟩
      rw [ofTrimmed_of_unchained nonempty unchained, begins.dropNegations_eq,
        Expression.ofSigned]

/-- A text without connectives splits at a comparison, or is read without one. -/
theorem splits_or_uncompared
    (unchained : Expression.ofTrimmed text = Expression.ofUnsigned text) :
    (∃ before, Splits text before) ∨
      (cutAt differentOperator text = none ∧ cutAt equalOperator text = none ∧
        Expression.ofTrimmed text = Expression.ofUncompared text) := by
  cases different : cutAt differentOperator text with
  | some parts =>
      refine .inl ⟨parts.1, ⟨differentOperator, by decide, parts.2, different⟩, ?_⟩
      intro setting value evaluated
      have compared :
          comparison? text = some (false, trim parts.1, trim parts.2) := by
        rw [comparison?, different]
      exact first_of_comparison compared (unchained ▸ evaluated)
  | none =>
      cases same : cutAt equalOperator text with
      | some parts =>
          refine .inl ⟨parts.1, ⟨equalOperator, by decide, parts.2, same⟩, ?_⟩
          intro setting value evaluated
          have compared :
              comparison? text = some (true, trim parts.1, trim parts.2) := by
            rw [comparison?, different, same]
            rfl
          exact first_of_comparison compared (unchained ▸ evaluated)
      | none =>
          refine .inr ⟨rfl, rfl, ?_⟩
          rw [unchained, Expression.ofUnsigned, comparison?, different, same]
          rfl

/-- A text without comparisons splits at a membership, or is read as an
operand. -/
theorem splits_or_untested
    (uncompared : Expression.ofTrimmed text = Expression.ofUncompared text) :
    (∃ before, Splits text before) ∨
      (cutAt membershipOperator text = none ∧
        Expression.ofTrimmed text = Expression.ofUndivided text) := by
  cases cutting : cutAt membershipOperator text with
  | some parts =>
      refine .inl ⟨parts.1, ⟨membershipOperator, by decide, parts.2, cutting⟩, ?_⟩
      intro setting value evaluated
      have tested :
          membership? text =
            some (parts.1,
              dropEnd? [')'] (trim (dropMembership text.length parts.2))) := by
        rw [membership?, cutting]
        rfl
      exact first_of_membership tested (uncompared ▸ evaluated)
  | none =>
      refine .inr ⟨rfl, ?_⟩
      rw [uncompared, Expression.ofUncompared, membership?, cutting,
        Option.map_none]
      rfl

/-- A text is divided at an operator, or it is a text in parentheses or a leaf. -/
theorem splits_or_whole (begins : Begins beginsOperand text) :
    (∃ before, Splits text before) ∨
      (Whole text ∧ Expression.ofTrimmed text = Expression.ofUndivided text) := by
  rcases splits_or_unchained begins with splits | ⟨joined, unchained⟩
  · exact .inl splits
  · rcases splits_or_uncompared unchained with
      splits | ⟨different, same, uncompared⟩
    · exact .inl splits
    · rcases splits_or_untested uncompared with splits | ⟨untested, undivided⟩
      · exact .inl splits
      · refine .inr ⟨?_, undivided⟩
        have absent {operator : List Char} (none : cutAt operator text = none)
            (before rest : List Char)
            (found : cutAt operator text = some (before, rest)) :
            rest = [] := by
          cases none.symm.trans found
        simp only [Whole, operators, List.forall_mem_cons]
        exact ⟨joined .or, joined .and, absent different, absent same,
          absent untested, List.forall_mem_nil _⟩

/-- A text without any operator is read as an operand. -/
theorem ofTrimmed_of_uncut (begins : Begins beginsOperand text)
    (uncut : ∀ operator ∈ operators, cutAt operator text = none) :
    Expression.ofTrimmed text = Expression.ofUndivided text := by
  rcases splits_or_whole begins with ⟨before, splits⟩ | ⟨-, undivided⟩
  · rcases splits.cutting with ⟨operator, member, rest, found⟩
    cases (uncut operator member).symm.trans found
  · exact undivided

end Divisions

/-! ## Conditions without braces -/

/-- The text is not between double braces. -/
def Unwrapped (text : List Char) : Prop :=
  ∀ inner, trim text ≠ wrapperStart ++ inner ++ wrapperEnd

/-- The text is more than blanks. -/
def Shown (text : List Char) : Prop :=
  ∃ character ∈ text, isBlank character = false

section Conditions

variable {text : List Char}

theorem Shown.trim_ne_nil (shown : Shown text) : trim text ≠ [] := by
  rcases shown with ⟨character, member, visible⟩
  have kept {part : List Char} (within : character ∈ part) :
      character ∈ part.dropWhile isBlank := by
    rw [← List.takeWhile_append_dropWhile (p := isBlank) (l := part)] at within
    rcases List.mem_append.mp within with blank | within
    · rw [List.mem_takeWhile_imp blank] at visible
      cases visible
    · exact within
  apply List.ne_nil_of_mem (a := character)
  rw [trim, trimEnd, List.mem_reverse]
  exact kept (List.mem_reverse.mpr (kept member))

theorem Unwrapped.of_head (unbraced : (trim text).head? ≠ some '{') :
    Unwrapped text := by
  intro inner same
  apply unbraced
  rw [same]
  rfl

theorem normalize_of_unwrapped (unwrapped : Unwrapped text) :
    normalize text = trim text := by
  rw [normalize]
  split
  · next inner wrapped =>
      rcases Option.bind_eq_some_iff.mp wrapped with ⟨opened, start, closed⟩
      refine (unwrapped inner ?_).elim
      rw [eq_append_of_dropStart? start, eq_append_of_dropEnd? closed,
        List.append_assoc]
  · rfl

/-- What is asked without braces around it is read as it stands. -/
theorem evaluator_of_unwrapped (query : Query) (unwrapped : Unwrapped text)
    (shown : Shown text) :
    evaluator { query with text := String.ofList text } =
      evaluate ⟨query.line, query.bindings, query.typed⟩
        (Expression.ofText text) := by
  rw [evaluator, read, String.toList_ofList, normalize_of_unwrapped unwrapped]
  simp only [List.isEmpty_eq_false_iff.mpr shown.trim_ne_nil, Bool.false_eq_true,
    if_false, ofText_trim]

end Conditions

end RequestFlow.Condition
