import RequestFlow.Proofs.Dividing

/-!
# Parentheses around a condition

Parentheses around a text are taken off if every parenthesis that the text closes
was opened in it, and a parenthesis in quotes counts like any other.  Main
statement: a text whose brackets do not close the parenthesis in front of it keeps
its value between parentheses exactly if its parentheses are paired, those in
quotes among them; if they are not, the text between parentheses is no condition.
-/

namespace RequestFlow.Condition

open RequestFlow.Text

/-! ## Texts in parentheses -/

/-- A text in parentheses. -/
def parenthesized (content : List Char) : List Char :=
  '(' :: (content ++ [')'])

/-- A parenthesis is open, and no quotes are. -/
def Place.inParenthesis : Place := ⟨.none, 1⟩

/-- Behind a parenthesis no operator of the text is exposed: none stands outside
quotes and behind a bracket that closes the parenthesis. -/
def Enclosed (content : List Char) : Prop :=
  ∀ operator ∈ operators, ¬ Exposes .inParenthesis operator content

/-- No parenthesis is closed that was not opened before, in quotes or not. -/
def Paired (content : List Char) : Prop :=
  ∀ front, front <+: content → front.count ')' ≤ front.count '('

instance (content : List Char) : Decidable (Enclosed content) :=
  decidable_of_iff
    (∀ operator ∈ operators, Place.inParenthesis.cut operator content = none)
    (forall₂_congr fun _ member => cut_eq_none_iff_exposes member)

/-! ## Pairs of parentheses -/

/-- What holds of all fronts of a text with a character before it holds behind the
character of all fronts of the text, which is the induction on fronts in one
step. -/
theorem forall_front_cons_iff {character : Char} {text : List Char}
    {holds : List Char → Prop} (none : holds []) :
    (∀ front, front <+: character :: text → holds front) ↔
      ∀ front, front <+: text → holds (character :: front) := by
  constructor
  · intro all front within
    exact all _ (List.cons_prefix_cons.mpr ⟨rfl, within⟩)
  · intro all front within
    rcases List.prefix_cons_iff.mp within with rfl | ⟨later, rfl, inside⟩
    · exact none
    · exact all later inside

/-- Parentheses are counted from left to right, starting with some that are
open. -/
theorem balanced_iff {depth : Nat} {text : List Char} :
    unwrap?.balanced depth text = true ↔
      ∀ front, front <+: text → front.count ')' ≤ depth + front.count '(' := by
  fun_induction unwrap?.balanced depth text with
  | case1 depth =>
      refine iff_of_true rfl ?_
      intro front none
      rw [List.prefix_nil.mp none]
      exact Nat.zero_le _
  | case2 depth text hypothesis =>
      apply hypothesis.trans
        (Iff.trans ?_ (forall_front_cons_iff (Nat.zero_le _)).symm)
      apply forall₂_congr
      intro front within
      have closed : ('(' :: front).count ')' = front.count ')' :=
        List.count_cons_of_ne (by decide)
      rw [closed, List.count_cons_self, Nat.add_assoc, Nat.add_comm 1]
  | case3 text =>
      refine iff_of_false Bool.false_ne_true ?_
      intro all
      exact absurd (all [')'] (List.cons_prefix_cons.mpr ⟨rfl, List.nil_prefix⟩))
        (by decide)
  | case4 depth text hypothesis =>
      apply hypothesis.trans
        (Iff.trans ?_ (forall_front_cons_iff (Nat.zero_le _)).symm)
      apply forall₂_congr
      intro front within
      have opened : (')' :: front).count '(' = front.count '(' :=
        List.count_cons_of_ne (by decide)
      rw [opened, List.count_cons_self, Nat.succ_add, Nat.add_le_add_iff_right]
  | case5 depth character text opening first later hypothesis =>
      have closing : character ≠ ')' := by
        cases depth with
        | zero => exact first rfl
        | succ depth => exact later depth rfl
      apply hypothesis.trans
        (Iff.trans ?_ (forall_front_cons_iff (Nat.zero_le _)).symm)
      apply forall₂_congr
      intro front within
      rw [List.count_cons_of_ne closing, List.count_cons_of_ne opening]

section Parentheses

variable {content : List Char}

theorem balanced_iff_paired :
    unwrap?.balanced 0 content = true ↔ Paired content := by
  rw [balanced_iff]
  simp only [Nat.zero_add, Paired]

/-- Parentheses around a text are taken off exactly if the parentheses within are
balanced, whatever quotes they stand in. -/
theorem unwrap?_parenthesized :
    unwrap? (parenthesized content) =
      if unwrap?.balanced 0 content then some content else none := by
  rw [unwrap?, parenthesized, dropStart?, if_pos rfl, dropStart?]
  simp only [dropEnd?_append]

instance : Decidable (Paired content) :=
  decidable_of_iff _ balanced_iff_paired

/-! ## Operators between the parentheses -/

theorem begins_parenthesized : Begins beginsOperand (parenthesized content) :=
  .of_unbraced rfl (by decide) _

theorem trim_parenthesized :
    trim (parenthesized content) = parenthesized content := by
  have starts : Starts (parenthesized content) :=
    begins_parenthesized.starts fun _ => isBlank_of_beginsOperand
  have ends : Ends (parenthesized content) := .of_last ('(' :: content) rfl
  exact trim_of_tight starts ends

/-- No operator begins with an opening bracket or has a closing one, so none takes
up a bracket around the content. -/
theorem outer_of_mem_operators {operator : List Char}
    (member : operator ∈ operators) :
    ')' ∉ operator ∧ operator.head? ≠ some '(' := by
  revert operator
  decide

/-- What the parentheses expose is exposed in the content with one bracket
open. -/
theorem exposes_parenthesized_iff {operator : List Char}
    (member : operator ∈ operators) :
    Exposes .outside operator (parenthesized content) ↔
      Exposes .inParenthesis operator content := by
  have unbegun : ¬ operator <+: parenthesized content := by
    rintro ⟨rest, whole⟩
    rcases exists_cons_of_mem_operators member with ⟨first, letters, rfl, -⟩
    rcases List.cons.inj whole with ⟨rfl, -⟩
    exact (outer_of_mem_operators member).2 rfl
  have apart : ∀ character ∈ [')'], character ∉ operator :=
    List.forall_mem_singleton.mpr (outer_of_mem_operators member).1
  have inside : Place.outside.next '(' = .inParenthesis := rfl
  rw [parenthesized, exposes_cons_iff, or_iff_right fun begins => unbegun begins.2,
    inside, exposes_append_of_apart member apart]

/-- A text that closes the parenthesis in front of it is divided at an operator
behind that. -/
theorem splits_parenthesized (unenclosed : ¬ Enclosed content) :
    ∃ before, Splits (parenthesized content) before := by
  have begins : Begins beginsOperand (parenthesized content) :=
    begins_parenthesized
  rcases splits_or_whole begins with splits | ⟨whole, -⟩
  · exact splits
  · exfalso
    apply unenclosed
    intro operator member exposes
    have fenced : ∀ last ∈ (parenthesized content).getLast?, last ∉ operator := by
      rw [parenthesized, ← List.cons_append, List.getLast?_concat]
      rintro _ ⟨⟩
      exact (outer_of_mem_operators member).1
    cases found : cutAt operator (parenthesized content) with
    | none =>
        exact (cutAt_eq_none_iff member).mp found
          ((exposes_parenthesized_iff member).mpr exposes)
    | some parts =>
        exact rest_ne_nil_of_cutAt member fenced found
          (whole operator member parts.1 parts.2 found)

/-- An enclosed content has no operator for the whole text to be divided at. -/
theorem ofTrimmed_parenthesized (enclosed : Enclosed content) :
    Expression.ofTrimmed (parenthesized content) =
      Expression.ofUndivided (parenthesized content) := by
  apply ofTrimmed_of_uncut begins_parenthesized
  intro operator member
  apply (cutAt_eq_none_iff member).mpr
  exact mt (exposes_parenthesized_iff member).mp (enclosed operator member)

/-- Parentheses that stay on are no literal and no path. -/
theorem readLeaf_parenthesized :
    readLeaf (parenthesized content) =
      .malformed (.unsupported (String.ofList (parenthesized content))) := by
  have unread : Path.ofText? (parenthesized content) = none := by
    cases read : Path.ofText? (parenthesized content) with
    | none => rfl
    | some path =>
        have part := (isPath_of_read read).1.characters '(' List.mem_cons_self
        cases part
  have unquoted : unquote? (parenthesized content) = none := rfl
  have unlike : looksLikeLiteral (parenthesized content) = false := by
    simp [looksLikeLiteral, parenthesized]
  rw [readLeaf, unlike, if_neg Bool.false_ne_true, unquoted, unread]

/-! ## Values -/

theorem shown_parenthesized : Shown (parenthesized content) :=
  ⟨'(', List.mem_cons_self, rfl⟩

theorem unwrapped_parenthesized : Unwrapped (parenthesized content) := by
  apply Unwrapped.of_head
  rw [trim_parenthesized]
  exact nofun

/-- An enclosed content in parentheses is read as the content if its parentheses
are balanced, and is an unsupported leaf otherwise. -/
theorem ofText_parenthesized (enclosed : Enclosed content) :
    Expression.ofText (parenthesized content) =
      if unwrap?.balanced 0 content then .ofText content
      else .malformed (.unsupported (String.ofList (parenthesized content))) := by
  rw [Expression.ofText_eq, trim_parenthesized, ofTrimmed_parenthesized enclosed,
    Expression.ofUndivided, unwrap?_parenthesized]
  cases unwrap?.balanced 0 content with
  | true => rfl
  | false => exact readLeaf_parenthesized

end Parentheses

/-- Between parentheses a text has its own value or error if its parentheses are
paired, and is no condition if they are not.  That is so unless it closes the
parenthesis in front of it and goes on with an operator; then it is divided there,
and has a value only if what is in front of the operator has. -/
theorem evaluator_parenthesized (query : Query) {content : List Char}
    (unwrapped : Unwrapped content) (shown : Shown content) :
    let answer (text : List Char) :=
      evaluator { query with text := String.ofList text }
    (Enclosed content → Paired content →
      answer (parenthesized content) = answer content) ∧
    (Enclosed content → ¬ Paired content →
      answer (parenthesized content) = .error (.evaluation query.line
        (Fault.unsupported (String.ofList (parenthesized content))).message)) ∧
    (¬ Enclosed content → ∃ before, Splits (parenthesized content) before) := by
  intro answer
  have asked : answer (parenthesized content) =
      evaluate ⟨query.line, query.bindings, query.typed⟩
        (Expression.ofText (parenthesized content)) :=
    evaluator_of_unwrapped query unwrapped_parenthesized shown_parenthesized
  have alone :
      answer content =
        evaluate ⟨query.line, query.bindings, query.typed⟩
          (Expression.ofText content) :=
    evaluator_of_unwrapped query unwrapped shown
  refine ⟨?_, ?_, splits_parenthesized⟩
  · intro enclosed paired
    rw [asked, alone, ofText_parenthesized enclosed,
      if_pos (balanced_iff_paired.mpr paired)]
  · intro enclosed unpaired
    rw [asked, ofText_parenthesized enclosed,
      if_neg (mt balanced_iff_paired.mp unpaired), evaluate]
    rfl

/-- A comparison of quoted parentheses keeps its value between parentheses, a
quoted parenthesis that closes has none there, and what closes more than it opens
is divided. -/
theorem evaluator_parenthesized_quotes :
    let answer (text : String) :=
      evaluator ⟨"", 1, .guard, 0, text, .empty, .empty⟩
    answer "('(' != ')')" = answer "'(' != ')'" ∧
      answer "(')')" = .error (.evaluation 0 "unsupported expression '(')')'") ∧
      ∃ before, Splits (parenthesized "true || ] || it".toList) before := by
  intro answer
  let query : Query := ⟨"", 1, .guard, 0, "", .empty, .empty⟩
  have compared : Unwrapped "'(' != ')'".toList := .of_head (by decide)
  have quoted : Unwrapped "')'".toList := .of_head (by decide)
  have closing : Unwrapped "true || ] || it".toList := .of_head (by decide)
  rcases evaluator_parenthesized query compared ⟨'(', by decide, rfl⟩ with
    ⟨kept, -, -⟩
  rcases evaluator_parenthesized query quoted ⟨')', by decide, rfl⟩ with
    ⟨-, lost, -⟩
  rcases evaluator_parenthesized query closing ⟨']', by decide, rfl⟩ with
    ⟨-, -, divided⟩
  exact ⟨kept (by decide) (by decide), lost (by decide) (by decide),
    divided (by decide)⟩

/-- A closing parenthesis in quotes is a text with a value, and has none between
parentheses. -/
theorem parenthesis_unread_quoted :
    let answer (text : String) :=
      evaluator ⟨"", 1, .guard, 0, text, .empty, .empty⟩
    answer "')'" = .ok (.ofText ")") ∧
      ∃ failure, answer "(')')" = .error failure := by
  intro answer
  let query : Query := ⟨"", 1, .guard, 0, "", .empty, .empty⟩
  let quoted : List Char := "')'".toList
  have wrapped : Unwrapped (parenthesized quoted) ∧ Shown (parenthesized quoted) :=
    ⟨unwrapped_parenthesized, shown_parenthesized⟩
  have alone :
      answer "')'" = evaluate ⟨0, .empty, .empty⟩ (Expression.ofText quoted) :=
    evaluator_of_unwrapped query (.of_head (by decide)) ⟨')', by decide, rfl⟩
  have asked : answer "(')')" =
      evaluate ⟨0, .empty, .empty⟩ (Expression.ofText (parenthesized quoted)) :=
    evaluator_of_unwrapped query wrapped.1 wrapped.2
  constructor
  · have begins : Begins beginsOperand quoted := .of_unbraced rfl (by decide) _
    have trimmed : trim quoted = quoted := by decide
    rw [alone, Expression.ofText_eq, trimmed,
      ofTrimmed_of_uncut begins (by decide)]
    rfl
  · rw [asked, ofText_parenthesized (by decide)]
    exact ⟨_, rfl⟩

end RequestFlow.Condition
