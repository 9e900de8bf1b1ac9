import RequestFlow.Proofs.Dividing
import RequestFlow.Proofs.Encodings

/-!
# Texts as literals

The encoding of a text is meant to be a condition with this text for its value.
An operator in the text that a search takes for one outside quotes spoils that.
Main statement: the encoding has its text for a value exactly if no operator is
exposed in the text behind a double quote, and it is equal to itself exactly if,
besides, the quotes and brackets in the text leave just the double quote open;
otherwise there is an error.
-/

namespace RequestFlow.Condition

open RequestFlow.Text

/-! ## Texts that begin with a quote -/

/-- The text begins with a double quote and does not end with a blank. -/
structure Quoted (text : List Char) : Prop where
  begins : ∃ rest, text = '"' :: rest
  ends : Ends text

section Quoted

variable {text before rest : List Char}

/-- A quote can begin an operand, so no negation and no blank is taken off in
front of it. -/
theorem Quoted.beginsOperand (quoted : Quoted text) :
    Begins beginsOperand text := by
  rcases quoted.begins with ⟨rest, rfl⟩
  exact .of_unbraced rfl (by decide) rest

theorem Quoted.starts (quoted : Quoted text) : Starts text :=
  quoted.beginsOperand.starts fun _ => isBlank_of_beginsOperand

theorem Quoted.trim_eq (quoted : Quoted text) : trim text = text :=
  trim_of_tight quoted.starts quoted.ends

/-- Of a text that begins with a quote only blanks behind it are trimmed. -/
theorem exists_quoted_trim (begins : ∃ rest, text = '"' :: rest) :
    ∃ blanks : Blanks, text = trim text ++ blanks.text ∧ Quoted (trim text) := by
  rcases begins with ⟨rest, rfl⟩
  have back :
      trim ('"' :: rest) = (('"' :: rest).reverse.dropWhile isBlank).reverse := by
    rw [trim, trimStart_cons_of_not_blank rest rfl, trimEnd]
  have whole : '"' :: rest =
      trim ('"' :: rest) ++ (('"' :: rest).reverse.takeWhile isBlank).reverse := by
    rw [back, ← List.reverse_append, List.takeWhile_append_dropWhile,
      List.reverse_reverse]
  have blank : ∀ character ∈ (('"' :: rest).reverse.takeWhile isBlank).reverse,
      isBlank character = true :=
    fun _ member => List.mem_takeWhile_imp (List.mem_reverse.mp member)
  refine ⟨⟨_, blank⟩, whole, ?_⟩
  cases trimmed : trim ('"' :: rest) with
  | nil =>
      -- The quote itself would be blank.
      rw [trimmed, List.nil_append] at whole
      cases blank '"' (whole ▸ List.mem_cons_self)
  | cons first others =>
      have tight : trim (first :: others) = first :: others :=
        trimmed ▸ trim_trim ('"' :: rest)
      rw [trimmed] at whole
      rcases List.cons.inj whole with ⟨rfl, -⟩
      exact ⟨⟨others, rfl⟩, (tight_of_trim tight).2⟩

/-- What stands before a cut begins with the quote too: no operator begins with
one. -/
theorem Quoted.begins_before {operator : List Char} (member : operator ∈ operators)
    (quoted : Quoted text) (cutting : cutAt operator text = some (before, rest)) :
    ∃ rest, before = '"' :: rest := by
  rcases quoted.begins with ⟨inside, rfl⟩
  have whole := eq_append_of_cutTopLevel cutting
  cases before with
  | cons first before =>
      rcases List.cons.inj whole with ⟨rfl, -⟩
      exact ⟨before, rfl⟩
  | nil =>
      rcases exists_cons_of_mem_operators member with
        ⟨first, others, rfl, unquoted⟩
      rcases List.cons.inj whole with ⟨rfl, -⟩
      exact (unquoted (by decide)).elim

/-- A text that begins with a quote is divided at an operator, or it is a leaf. -/
theorem Quoted.splits_or_whole (quoted : Quoted text) :
    (∃ before, Splits text before) ∨
      (Whole text ∧ Expression.ofTrimmed text = readLeaf text) := by
  have unwrapped : unwrap? text = none := by
    rcases quoted.begins with ⟨rest, rfl⟩
    rfl
  have leaf : Expression.ofUndivided text = readLeaf text := by
    rw [Expression.ofUndivided, unwrapped]
  rw [← leaf]
  exact Condition.splits_or_whole quoted.beginsOperand

variable {setting : Setting} {value : Value}

/-! ## The leftmost leaf -/

/-- The leaf at the front of a text that has a value. -/
structure Leftmost (text leaf : List Char) : Prop where
  begins : leaf <+: text
  quoted : Quoted leaf
  whole : Whole leaf
  read : ∃ value, Json.read leaf = .ok value
  /-- Nothing is open behind the leaf if an operator is. -/
  alone : leaf = text ∨ Place.outside.after leaf = .outside

/-- What begins with a quote is read as data. -/
theorem looksLikeLiteral_of_quoted (quoted : Quoted text) :
    looksLikeLiteral text = true := by
  rcases quoted.begins with ⟨rest, rfl⟩
  rfl

/-- The value of a text is found only if its leftmost leaf can be read. -/
theorem exists_leftmost (quoted : Quoted text)
    (evaluated : evaluate setting (Expression.ofTrimmed text) = .ok value) :
    ∃ leaf, Leftmost text leaf := by
  -- By the length: what stands in front of an operator is a shorter text that
  -- begins with the quote.
  induction length : text.length using Nat.strong_induction_on generalizing text
      value with
  | _ length hypothesis =>
      rcases quoted.splits_or_whole with ⟨before, splits⟩ | ⟨whole, reads⟩
      · rcases splits.cutting with ⟨operator, member, rest, cutting⟩
        rcases splits.first setting value evaluated with ⟨first, evaluatedFirst⟩
        rcases exists_quoted_trim (quoted.begins_before member cutting) with
          ⟨blanks, split, front⟩
        rw [Expression.ofText_eq] at evaluatedFirst
        have divided : text = before ++ operator ++ rest :=
          eq_append_of_cutTopLevel cutting
        have shorter : (trim before).length < text.length := by
          have positive := List.length_pos_iff.mpr (ne_nil_of_mem_operators member)
          have := trim_length_le before
          rw [divided, List.length_append, List.length_append]
          omega
        rcases hypothesis _ (length ▸ shorter) front evaluatedFirst rfl with
          ⟨leaf, leftmost⟩
        have bare : Place.outside.after (trim before) = .outside := by
          rw [cutAt_eq] at cutting
          have closed := after_of_cut member cutting
          rwa [split, Place.after_append, Place.after_blanks] at closed
        refine ⟨leaf, ?_, leftmost.quoted, leftmost.whole, leftmost.read, .inr ?_⟩
        · have front : trim before <+: before := ⟨blanks.text, split.symm⟩
          rw [divided, List.append_assoc]
          exact (leftmost.begins.trans front).trans (List.prefix_append _ _)
        · rcases leftmost.alone with rfl | closed
          · exact bare
          · exact closed
      · rw [reads, readLeaf, if_pos (looksLikeLiteral_of_quoted quoted)]
          at evaluated
        cases read : Json.read text with
        | error failure =>
            rw [read] at evaluated
            dsimp only at evaluated
            rw [evaluate] at evaluated
            cases evaluated
        | ok found =>
            exact ⟨text, List.prefix_rfl, quoted, whole, ⟨found, read⟩, .inl rfl⟩

/-- Nothing is trimmed off a quoted text and no parentheses are taken off it. -/
theorem Quoted.evaluator_eq (quoted : Quoted text) (query : Query) :
    evaluator { query with text := String.ofList text } =
      evaluate ⟨query.line, query.bindings, query.typed⟩
        (Expression.ofTrimmed text) := by
  rcases quoted.begins with ⟨rest, rfl⟩
  have unwrapped : Unwrapped ('"' :: rest) := by
    apply Unwrapped.of_head
    rw [quoted.trim_eq]
    exact nofun
  have shown : Shown ('"' :: rest) := ⟨'"', List.mem_cons_self, rfl⟩
  rw [evaluator_of_unwrapped query unwrapped shown, Expression.ofText_eq,
    quoted.trim_eq]

end Quoted

/-! ## Encodings -/

/-- Behind a double quote no operator in the text is taken for one outside
quotes. -/
def Unexposed (text : String) : Prop :=
  ∀ operator ∈ operators, ¬ Exposes .inDouble operator text.toList

/-- Behind a double quote and the text just the double quote is open. -/
def StaysOpen (text : String) : Prop :=
  Place.inDouble.after text.toList = .inDouble

instance (text : String) : Decidable (StaysOpen text) :=
  inferInstanceAs (Decidable (_ = _))

section Encodings

variable {text : String}

/-- Only a double quote ends double quotes. -/
theorem after_of_no_quote {front : List Char} (absent : '"' ∉ front) :
    Place.inDouble.after front = .inDouble := by
  induction front with
  | nil => rfl
  | cons character front hypothesis =>
      rw [List.mem_cons, not_or] at absent
      have same : Place.inDouble.next character = .inDouble := by
        rw [Place.next, Place.inDouble]
        simp only [Ne.symm absent.1, if_false]
      rw [Place.after_cons, same, hypothesis absent.2]

/-- In a text without double quotes nothing is exposed, and it leaves the quote
open. -/
theorem unexposed_and_staysOpen_of_no_quote (absent : '"' ∉ text.toList) :
    Unexposed text ∧ StaysOpen text := by
  refine ⟨?_, after_of_no_quote absent⟩
  rintro operator member ⟨before, rest, whole, bare⟩
  have front : '"' ∉ before := by
    intro quote
    rw [whole] at absent
    exact absent (List.mem_append_left _ (List.mem_append_left _ quote))
  cases (after_of_no_quote front).symm.trans bare

theorem quoted_quote (text : String) : Quoted (Json.quote text) :=
  ⟨⟨_, rfl⟩, .of_last ('"' :: text.toList.flatMap Json.escape) rfl⟩

theorem getLast?_quote (text : String) :
    (Json.quote text).getLast? = some '"' := by
  rw [Json.quote, ← List.cons_append, List.getLast?_concat]

/-- No operator has a double quote, so an encoding is fenced from every
operator. -/
theorem fenced_quote {operator : List Char} (member : operator ∈ operators)
    (text : String) : ∀ last ∈ (Json.quote text).getLast?, last ∉ operator := by
  rw [getLast?_quote]
  rintro _ ⟨⟩ quote
  exact not_mem_quotes_of_mem_operators member _ quote (by decide)

/-- An encoding is read as a whole exactly if the text exposes no operator behind
a double quote. -/
theorem whole_quote_iff : Whole (Json.quote text) ↔ Unexposed text := by
  constructor
  · intro whole operator member exposes
    rw [← exposes_quote_iff member] at exposes
    cases found : cutAt operator (Json.quote text) with
    | none => exact (cutAt_eq_none_iff member).mp found exposes
    | some parts =>
        exact rest_ne_nil_of_cutAt member (fenced_quote member text) found
          (whole operator member parts.1 parts.2 found)
  · intro unexposed operator member before rest found
    have hidden :=
      mt (exposes_quote_iff member text).mp (unexposed operator member)
    cases ((cutAt_eq_none_iff member).mpr hidden).symm.trans found

/-- The encoding of a text in which nothing is exposed is read as the text. -/
theorem ofTrimmed_quote (unexposed : Unexposed text) :
    Expression.ofTrimmed (Json.quote text) = .literal (.string text) := by
  have whole := whole_quote_iff.mpr unexposed
  rcases (quoted_quote text).splits_or_whole with ⟨before, splits⟩ | ⟨-, reads⟩
  · rcases splits.cutting with ⟨operator, member, rest, cutting⟩
    have hidden :=
      mt (exposes_quote_iff member text).mp (unexposed operator member)
    cases ((cutAt_eq_none_iff member).mpr hidden).symm.trans cutting
  · rw [reads, readLeaf, if_pos (looksLikeLiteral_of_quoted (quoted_quote text)),
      Json.read_quote]

/-- A text that begins with an encoding has a value only if nothing is exposed in
the encoding, and if there is more of the text, only if the encoding closes its
quotes. -/
theorem unexposed_of_evaluate {setting : Setting} {value : Value}
    {more : List Char} (quoted : Quoted (Json.quote text ++ more))
    (evaluated :
      evaluate setting (Expression.ofTrimmed (Json.quote text ++ more)) =
        .ok value) : Unexposed text ∧ (more = [] ∨ StaysOpen text) := by
  rcases exists_leftmost quoted evaluated with ⟨leaf, leftmost⟩
  rcases leftmost.read with ⟨found, read⟩
  rcases Json.eq_quote_of_read leftmost.begins leftmost.quoted.ends read with rfl
  refine ⟨whole_quote_iff.mp leftmost.whole,
    leftmost.alone.imp ?_ (after_quote_iff text).mp⟩
  intro alone
  exact List.self_eq_append_right.mp alone

/-! ## Comparisons -/

/-- The comparison of the encoding of a text with itself. -/
def selfComparison (text : String) (before after : Blanks) : List Char :=
  Json.quote text ++
    (before.text ++ equalOperator ++ (after.text ++ Json.quote text))

theorem quoted_selfComparison (text : String) (before after : Blanks) :
    Quoted (selfComparison text before after) := by
  refine ⟨⟨_, rfl⟩, ?_⟩
  exact (((quoted_quote text).ends.prepend _).prepend _).prepend _

/-- The operators that are looked for before that of the comparison. -/
def earlierOperators : List (List Char) :=
  [orOperator, andOperator, differentOperator]

/-- The operators looked for earlier begin neither with a blank nor with an equals
sign, so the comparison itself exposes none of them. -/
theorem head?_of_mem_earlierOperators :
    ∀ operator ∈ earlierOperators, operator ∈ operators ∧
      ∀ character ∈ operator.head?,
        isBlank character = false ∧ character ≠ '=' := by
  intro operator earlier
  refine ⟨(show earlierOperators ⊆ operators by decide) earlier, ?_⟩
  simp only [earlierOperators, List.mem_cons, List.not_mem_nil, or_false]
    at earlier
  rcases earlier with rfl | rfl | rfl
  all_goals
    rintro _ ⟨⟩
    decide

/-- Behind the encoding no operator is found earlier than that of the
comparison. -/
theorem cutAt_selfComparison_of_earlier {operator : List Char}
    (unexposed : Unexposed text) (staysOpen : StaysOpen text)
    (before after : Blanks) (earlier : operator ∈ earlierOperators) :
    cutAt operator (selfComparison text before after) = none := by
  rcases head?_of_mem_earlierOperators operator earlier with ⟨member, visible⟩
  have hidden := mt (exposes_quote_iff member text).mp (unexposed operator member)
  have unbegun : ∀ character ∈ before.text ++ equalOperator ++ after.text,
      operator.head? ≠ some character := by
    intro character within begins
    rcases visible character begins with ⟨shown, unlike⟩
    rcases List.mem_append.mp within with within | within
    · rcases List.mem_append.mp within with within | within
      · cases (before.blank character within).symm.trans shown
      · exact unlike (by simpa [equalOperator] using within)
    · cases (after.blank character within).symm.trans shown
  have middle :
      Place.outside.after (before.text ++ equalOperator ++ after.text) =
        .outside := by
    rw [Place.after_append, Place.after_append, Place.after_blanks,
      Place.after_blanks]
    rfl
  have rest : before.text ++ equalOperator ++ (after.text ++ Json.quote text) =
      before.text ++ equalOperator ++ after.text ++ Json.quote text := by
    rw [List.append_assoc _ after.text]
  have later : ¬ Exposes .outside operator
      (before.text ++ equalOperator ++ (after.text ++ Json.quote text)) := by
    rw [rest, exposes_append_iff member unbegun, middle]
    exact hidden
  rw [cutAt_eq, selfComparison,
    cut_append member hidden (fenced_quote member text),
    (after_quote_iff text).mpr staysOpen,
    (cut_eq_none_iff_exposes member).mpr later]
  rfl

/-- The comparison is cut at its own operator, and nowhere in the encodings. -/
theorem cutAt_selfComparison (unexposed : Unexposed text)
    (staysOpen : StaysOpen text) (before after : Blanks) :
    cutAt equalOperator (selfComparison text before after) =
      some (Json.quote text ++ before.text, after.text ++ Json.quote text) := by
  have member : equalOperator ∈ operators := by decide
  have hidden := mt (exposes_quote_iff member text).mp (unexposed _ member)
  have hides : Hides isOrdinary equalOperator := ⟨by decide, by decide⟩
  have found := hides.cutAt_eq_some before.closes (after.text ++ Json.quote text)
  rw [cutAt_eq] at found
  rw [cutAt_eq, selfComparison,
    cut_append member hidden (fenced_quote member text),
    (after_quote_iff text).mpr staysOpen, found]
  rfl

/-- So it is read as the comparison of the two literals. -/
theorem ofTrimmed_selfComparison (unexposed : Unexposed text)
    (staysOpen : StaysOpen text) (before after : Blanks) :
    Expression.ofTrimmed (selfComparison text before after) =
      .comparison true (.literal (.string text)) (.literal (.string text)) := by
  have absent {operator : List Char} (earlier : operator ∈ earlierOperators) :
      cutAt operator (selfComparison text before after) = none :=
    cutAt_selfComparison_of_earlier unexposed staysOpen before after earlier
  have unjoined (connective : Connective) (first rest : List Char)
      (found :
        cutAt connective.operator (selfComparison text before after) =
          some (first, rest)) :
      rest = [] := by
    have earlier : connective.operator ∈ earlierOperators := by
      cases connective <;> decide
    cases (absent earlier).symm.trans found
  have quoted := quoted_quote text
  have compared := quoted_selfComparison text before after
  have left : trim (Json.quote text ++ before.text) = Json.quote text :=
    trim_pad quoted.starts quoted.ends .none before
  have right : trim (after.text ++ Json.quote text) = Json.quote text := by
    have padded := trim_pad quoted.starts quoted.ends after .none
    rwa [Blanks.none, List.append_nil] at padded
  have sides : comparison? (selfComparison text before after) =
      some (true, Json.quote text, Json.quote text) := by
    rw [comparison?, absent (by decide), cutAt_selfComparison unexposed staysOpen,
      Option.map_some, left, right]
  have literal :
      Expression.ofText (Json.quote text) = .literal (.string text) := by
    rw [Expression.ofText_eq, quoted.trim_eq, ofTrimmed_quote unexposed]
  rw [ofTrimmed_of_unchained compared.starts.ne_nil unjoined,
    compared.beginsOperand.dropNegations_eq, Expression.ofSigned,
    Expression.ofUnsigned, sides]
  simp only [quoted.starts.isEmpty, Bool.or_self, Bool.false_eq_true, if_false,
    literal]

end Encodings

/-! ## Texts that are their own value -/

section Values

variable {text : String} (query : Query)

/-- An unexposed text is what the evaluator makes of its encoding. -/
theorem evaluator_quote_of_unexposed (unexposed : Unexposed text) :
    evaluator { query with text := String.ofList (Json.quote text) } =
      .ok (.ofText text) := by
  rw [(quoted_quote text).evaluator_eq, ofTrimmed_quote unexposed, evaluate]
  rfl

theorem evaluator_selfComparison_of_unexposed (unexposed : Unexposed text)
    (staysOpen : StaysOpen text) (before after : Blanks) :
    evaluator
        { query with text := String.ofList (selfComparison text before after) } =
      .ok (.ofBool true) := by
  rw [(quoted_selfComparison text before after).evaluator_eq,
    ofTrimmed_selfComparison unexposed staysOpen, evaluate, evaluate]
  simp [Value.equals, Value.equalData, Json.sameAs]

/-- A text that begins with an encoding has no value if an operator is exposed in
the encoding, or if there is more of the text and the encoding does not close its
quotes. -/
theorem exists_failure_of_exposed {more : List Char}
    (quoted : Quoted (Json.quote text ++ more))
    (spoiled : ¬ (Unexposed text ∧ (more = [] ∨ StaysOpen text))) :
    ∃ failure,
      evaluator { query with text := String.ofList (Json.quote text ++ more) } =
        .error failure := by
  rw [quoted.evaluator_eq]
  cases evaluated : evaluate ⟨query.line, query.bindings, query.typed⟩
      (Expression.ofTrimmed (Json.quote text ++ more)) with
  | error failure => exact ⟨failure, rfl⟩
  | ok value => exact (spoiled (unexposed_of_evaluate quoted evaluated)).elim

/-- With an operator exposed the encoding is torn apart, and the left part is a
quote that is not closed. -/
theorem exists_failure_quote (exposed : ¬ Unexposed text) :
    ∃ failure, evaluator { query with text := String.ofList (Json.quote text) } =
      .error failure := by
  have whole := List.append_nil (Json.quote text)
  rw [← whole]
  exact exists_failure_of_exposed query (whole.symm ▸ quoted_quote text)
    fun hidden => exposed hidden.1

/-- The same of the comparison, also where the scanner does not find the end of
the first encoding. -/
theorem exists_failure_selfComparison (before after : Blanks)
    (spoiled : ¬ (Unexposed text ∧ StaysOpen text)) :
    ∃ failure,
      evaluator
          { query with text := String.ofList (selfComparison text before after) } =
        .error failure := by
  refine exists_failure_of_exposed query (quoted_selfComparison text before after)
    ?_
  rintro ⟨unexposed, none | staysOpen⟩
  · have operator :=
      (List.append_eq_nil_iff.mp (List.append_eq_nil_iff.mp none).1).2
    cases operator
  · exact spoiled ⟨unexposed, staysOpen⟩

end Values

/-- The encoding of a text has the text for its value if no operator is exposed in
the text, and is equal to itself if, besides, just the double quote stays open
behind the text; else there is an error.  Both are so for a text without double
quotes. -/
theorem evaluator_quote (query : Query) (text : String) (before after : Blanks) :
    let answer (written : List Char) :=
      evaluator { query with text := String.ofList written }
    (Unexposed text → answer (Json.quote text) = .ok (.ofText text)) ∧
    (¬ Unexposed text → ∃ failure, answer (Json.quote text) = .error failure) ∧
    (Unexposed text ∧ StaysOpen text →
      answer (selfComparison text before after) = .ok (.ofBool true)) ∧
    (¬ (Unexposed text ∧ StaysOpen text) →
      ∃ failure, answer (selfComparison text before after) = .error failure) ∧
    ('"' ∉ text.toList → Unexposed text ∧ StaysOpen text) :=
  ⟨evaluator_quote_of_unexposed query, exists_failure_quote query,
    fun both =>
      evaluator_selfComparison_of_unexposed query both.1 both.2 before after,
    exists_failure_selfComparison query before after,
    unexposed_and_staysOpen_of_no_quote⟩

/-- The encoding of a text with `||` between two double quotes is no literal, and
that of a double quote is not equal to itself. -/
theorem text_unread_twoQuotes :
    let answer (written : List Char) := evaluator
      ⟨"", 1, .guard, 0, String.ofList written, .empty, .empty⟩
    (∃ failure, answer (Json.quote "a\" || \"b") = .error failure) ∧
      ∃ failure, answer (selfComparison "\"" .none .none) = .error failure := by
  intro answer
  let query : Query := ⟨"", 1, .guard, 0, "", .empty, .empty⟩
  constructor
  · refine exists_failure_quote query ?_
    intro unexposed
    exact unexposed orOperator (by decide)
      ⟨"a\" ".toList, " \"b".toList, by decide, by decide⟩
  · refine exists_failure_selfComparison query .none .none ?_
    rintro ⟨-, staysOpen⟩
    exact absurd staysOpen (by decide)

end RequestFlow.Condition
