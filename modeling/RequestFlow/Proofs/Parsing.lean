import RequestFlow.Proofs.Surface

/-!
# Reading phrases

Every rule of the grammar puts its operator where the search for that operator
meets it first, and what stands around it is read by itself.  Main statement: a
text that writes a condition is read as the tree of its phrase.
-/

namespace RequestFlow.Condition

open RequestFlow.Text

/-! ## Trees -/

/-- The tree of a chain of several operands. -/
def Connective.tree : Connective → List Expression → Expression
  | or => .disjunction
  | and => .conjunction

mutual

/-- The tree of a phrase. -/
def Phrase.expression : {level : Level} → Phrase level → Expression
  | _, .single operand => operand.expression
  | _, @Phrase.chained connective first _ _ others =>
      connective.tree (first.expression :: others.operands)
  | _, .negation [] operand => operand.expression
  | _, .negation (_ :: signs) operand =>
      .negation (signs.length + 1) operand.expression
  | _, .uncompared side => side.expression
  | _, .compared equal left _ _ right =>
      .comparison equal left.expression right.expression
  | _, .plain operand => operand.expression
  | _, .member collection _ _ item _ =>
      .membership collection.expression item.expression
  | _, .wrapped _ content _ => content.expression
  | _, .data literal => literal.expression
  | _, .quoted quotation => .literal (.string (String.ofList quotation.text))
  | _, .variableAt reference => .variableAt reference.text reference.path

/-- The trees of the operands of a chain. -/
def Phrase.operands : {level : Level} → Phrase level → List Expression
  | _, .single operand => [operand.expression]
  | _, .chained first _ _ others => first.expression :: others.operands
  | _, _ => []

end

/-- The texts of the operands of a chain. -/
def Phrase.texts : {level : Level} → Phrase level → List (List Char)
  | _, .single operand => [operand.text]
  | _, .chained first _ _ others => first.text :: others.texts
  | _, _ => []

/-! ## One step of reading -/

/-- The tree of what is neither a chain nor a comparison and has no negations. -/
def Expression.ofUncompared (text : List Char) : Expression :=
  match membership? text with
  | some (_, none) => .malformed .unclosedMembership
  | some (collection, some item) =>
      if (trim item).isEmpty then .malformed .missingArgument
      else .membership (ofText collection) (ofText item)
  | none =>
      match unwrap? text with
      | some content => ofText content
      | none => readLeaf text

/-- The tree of what is no chain and has no negations. -/
def Expression.ofUnsigned (text : List Char) : Expression :=
  match comparison? text with
  | some (equal, left, right) =>
      if left.isEmpty || right.isEmpty then .malformed .missingSide
      else .comparison equal (ofText left) (ofText right)
  | none => ofUncompared text

/-- The tree of what is no chain, from the number of its negations and what is
behind them. -/
def Expression.ofSigned : Nat × List Char → Expression
  | (0, inner) => ofUnsigned inner
  | (count + 1, inner) =>
      if (trim inner).isEmpty then .malformed .danglingNegation
      else .negation (count + 1) (ofText inner)

/-- The tree of a text without blanks at its ends. -/
def Expression.ofTrimmed (text : List Char) : Expression :=
  if text.isEmpty then .malformed .emptyOperand
  else if 2 ≤ (partsAt orOperator (text.length + 1) text).length then
    .disjunction ((partsAt orOperator (text.length + 1) text).map ofText)
  else if 2 ≤ (partsAt andOperator (text.length + 1) text).length then
    .conjunction ((partsAt andOperator (text.length + 1) text).map ofText)
  else ofSigned (dropNegations text.length text)

/-- A chain is recognised where its operator divides the text into two parts or
more. -/
theorem of_operands?_eq_some {operator text : List Char} {nonempty : operator ≠ []}
    {parts : List { part : List Char // part.length < text.length }}
    (found : operands? operator nonempty text = some parts) :
    2 ≤ (partsAt operator (text.length + 1) text).length ∧
      parts.map Subtype.val = partsAt operator (text.length + 1) text := by
  simp only [operands?] at found
  split at found
  · next several =>
      cases found
      refine ⟨several, ?_⟩
      rw [List.map_map]
      exact List.attach_map_subtype_val _
  · cases found

/-- Where no chain is recognised, the operator divides nothing. -/
theorem of_operands?_eq_none {operator text : List Char} {nonempty : operator ≠ []}
    (missed : operands? operator nonempty text = none) :
    ¬2 ≤ (partsAt operator (text.length + 1) text).length := by
  simp only [operands?] at missed
  split at missed
  · cases missed
  · assumption

/-- Blanks at the ends of a text do not count. -/
theorem Expression.ofText_eq (source : List Char) :
    ofText source = ofTrimmed (trim source) := by
  have trees
      (parts : List { part : List Char // part.length < (trim source).length }) :
      parts.map (fun part => ofText part.1) = (parts.map Subtype.val).map ofText :=
    (List.map_map ..).symm
  -- The branches of `ofText` carry bounds for its recursion, so its searches are
  -- not rewritten but followed, and what was found is put into the equations of
  -- one step.
  rw [ofText, ofTrimmed]
  split
  · rfl
  · split
    · next parts found =>
        rcases of_operands?_eq_some found with ⟨several, equal⟩
        rw [if_pos several, trees, equal]
    · next missed =>
        rw [if_neg (of_operands?_eq_none missed)]
        split
        · next parts found =>
            rcases of_operands?_eq_some found with ⟨several, equal⟩
            rw [if_pos several, trees, equal]
        · next missed =>
            rw [if_neg (of_operands?_eq_none missed)]
            split
            · next counted =>
                dsimp only
                rw [counted]
                rfl
            · next inner counted =>
                have unsigned :
                    ofSigned (dropNegations (trim source).length (trim source)) =
                      ofUnsigned inner := by
                  rw [counted]
                  rfl
                rw [unsigned, ofUnsigned]
                dsimp only
                split
                · next compared => rw [compared]
                · next compared =>
                  rw [compared]
                  dsimp only
                  rw [ofUncompared]
                  split
                  · next tested => rw [tested]
                  · next tested => rw [tested]
                  · next tested =>
                    rw [tested]
                    dsimp only
                    split
                    · next wrapped => rw [wrapped]
                    · next wrapped => rw [wrapped]

theorem Phrase.ofText_text {level : Level} (phrase : Phrase level) :
    Expression.ofText phrase.text = Expression.ofTrimmed phrase.text := by
  rw [Expression.ofText_eq, phrase.trim_text]

/-! ## Chains -/

/-- A text is divided at the first operator, and then what is behind it. -/
theorem partsAt_succ {operator text : List Char} (nonempty : text ≠ [])
    (steps : Nat) : partsAt operator (steps + 1) text =
      match cutAt operator text with
      | none => [trim text]
      | some (before, rest) => trim before :: partsAt operator steps rest := by
  cases text with
  | nil => exact (nonempty rfl).elim
  | cons character text => rfl

theorem Starts.ne_nil {text : List Char} (starts : Starts text) : text ≠ [] := by
  rcases starts with ⟨first, rest, rfl, -⟩
  exact List.cons_ne_nil _ _

theorem Starts.isEmpty {text : List Char} (starts : Starts text) :
    text.isEmpty = false := by
  rw [List.isEmpty_eq_false_iff]
  exact starts.ne_nil

/-- A chain comes apart at its operators. -/
theorem Phrase.partsAt_behind : {connective : Connective} →
    (phrase : Phrase (.chain connective)) → (before : Blanks) → (steps : Nat) →
    (before.text ++ phrase.text).length < steps →
    partsAt connective.operator steps (before.text ++ phrase.text) = phrase.texts
  | connective, .single operand, before, steps + 1, _ => by
      have closes := (before.closes_at _).append operand.closes
      have nonempty : before.text ++ operand.text ≠ [] :=
        List.append_ne_nil_of_right_ne_nil _ operand.starts.ne_nil
      rw [Phrase.texts, Phrase.text, partsAt_succ nonempty,
        connective.hides.cutAt_eq_none closes, operand.trim_behind]
  | connective, .chained first middle after others, before, steps + 1, enough => by
      have whole : before.text ++ (Phrase.chained first middle after others).text =
          (before.text ++ first.text ++ middle.text) ++ connective.operator ++
            (after.text ++ others.text) := by
        simp only [Phrase.text, List.append_assoc]
      have closes :=
        ((before.closes_at _).append first.closes).append (middle.closes_at _)
      have nonempty :
          before.text ++ (Phrase.chained first middle after others).text ≠ [] :=
        List.append_ne_nil_of_right_ne_nil _ (Phrase.starts _).ne_nil
      have operator : 0 < connective.operator.length := by
        cases connective <;> decide
      have fewer : (after.text ++ others.text).length < steps := by
        rw [whole, List.length_append, List.length_append] at enough
        omega
      -- The blanks behind the operator are in front of what is searched next.
      rw [partsAt_succ nonempty, whole, connective.hides.cutAt_eq_some closes,
        Phrase.texts]
      simp only [first.trim_around, others.partsAt_behind after steps fewer]

/-- A chain is divided into the texts of its operands. -/
theorem Phrase.partsAt_text {connective : Connective}
    (phrase : Phrase (.chain connective)) :
    partsAt connective.operator (phrase.text.length + 1) phrase.text =
      phrase.texts :=
  phrase.partsAt_behind .none _ (Nat.lt_succ_self _)

theorem Phrase.texts_ne_nil {connective : Connective}
    (phrase : Phrase (.chain connective)) : phrase.texts ≠ [] := by
  cases phrase <;> exact List.cons_ne_nil _ _

/-- A text is not divided by an operator that a scan does not meet in it. -/
theorem partsAt_of_closes {visible : Char → Bool} {operator text : List Char}
    (hides : Hides visible operator) (closes : Closes visible text)
    (starts : Starts text) :
    ¬2 ≤ (partsAt operator (text.length + 1) text).length := by
  rw [partsAt_succ starts.ne_nil, hides.cutAt_eq_none closes]
  exact Nat.lt_irrefl 1

/-- A chain is read as the tree of its connective over its operands. -/
theorem ofTrimmed_chained {connective : Connective}
    (first : Phrase connective.below) (before after : Blanks)
    (others : Phrase (.chain connective)) :
    Expression.ofTrimmed (Phrase.chained first before after others).text =
      connective.tree
        ((Phrase.chained first before after others).texts.map
          Expression.ofText) := by
  have parts := (Phrase.chained first before after others).partsAt_text
  have several : 2 ≤ (Phrase.chained first before after others).texts.length :=
    Nat.succ_le_succ (List.length_pos_iff.mpr others.texts_ne_nil)
  have starts := (Phrase.chained first before after others).starts
  rw [Expression.ofTrimmed, starts.isEmpty, if_neg Bool.false_ne_true]
  cases connective with
  | or =>
      have found : partsAt orOperator _ _ = _ := parts
      rw [found, if_pos several]
      rfl
  | and =>
      have hides : Hides (Level.chain .and).visible orOperator :=
        ⟨by decide, by decide⟩
      have found : partsAt andOperator _ _ = _ := parts
      rw [if_neg (partsAt_of_closes hides (Phrase.closes _) starts), found,
        if_pos several]
      rfl

/-- A text in which no connective is met is read by taking off its signs of
negation. -/
theorem ofTrimmed_of_closes {text : List Char}
    (closes : Closes Level.negation.visible text) (starts : Starts text) :
    Expression.ofTrimmed text =
      Expression.ofSigned (dropNegations text.length text) := by
  have bars : Hides Level.negation.visible orOperator := ⟨by decide, by decide⟩
  have ampersands : Hides Level.negation.visible andOperator :=
    ⟨by decide, by decide⟩
  rw [Expression.ofTrimmed, starts.isEmpty, if_neg Bool.false_ne_true,
    if_neg (partsAt_of_closes bars closes starts),
    if_neg (partsAt_of_closes ampersands closes starts)]

/-! ## Negations -/

/-- Behind blanks comes the first character of the text, or a blank. -/
theorem Begins.ne_cons {test : Char → Bool} {text : List Char}
    (begins : Begins test text) (blanks : Blanks) {character : Char}
    (visible : isBlank character = false) (unlike : test character = false)
    (rest : List Char) : blanks.text ++ text ≠ character :: rest := by
  intro equal
  rcases begins with ⟨first, others, rfl, passes, -⟩
  rcases List.append_eq_cons_iff.mp equal with ⟨-, same⟩ | ⟨more, same, -⟩
  · rcases List.cons.inj same with ⟨rfl, -⟩
    rw [passes] at unlike
    cases unlike
  · rw [blanks.blank character (by rw [same]; exact List.mem_cons_self)] at visible
    cases visible

theorem trimStart_pad {text : List Char} (starts : Starts text) (before : Blanks) :
    trimStart (before.text ++ text) = text := by
  rcases starts with ⟨first, rest, rfl, visible⟩
  rw [trimStart, List.dropWhile_append_of_pos before.blank, ← trimStart,
    trimStart_cons_of_not_blank rest visible]

/-- Signs of negation in front of an operand do not make it begin with two
braces. -/
theorem begins_signs (signs : List Blanks) {text : List Char}
    (begins : Begins beginsOperand text) :
    Begins Level.negation.begins (signsText signs ++ text) := by
  cases signs with
  | nil => exact begins.weaken fun _ => Level.negation.begins_of_beginsOperand
  | cons blanks signs => exact .of_unbraced rfl (by decide) _

/-- All negations in front of an operand are counted. -/
theorem dropNegations_signs (signs : List Blanks) {text : List Char}
    (begins : Begins beginsOperand text) {steps : Nat}
    (enough : signs.length ≤ steps) (before : Blanks) :
    dropNegations steps (before.text ++ (signsText signs ++ text)) =
      (signs.length, text) := by
  induction signs generalizing steps before with
  | nil =>
      have front : trimStart (before.text ++ text) = text :=
        trimStart_pad (begins.starts fun _ => isBlank_of_beginsOperand) before
      cases steps with
      | zero =>
          rw [dropNegations]
          exact congrArg (0, ·) front
      | succ steps =>
          rw [dropNegations]
          split
          · next rest equal =>
              exact absurd (front.symm.trans equal)
                (begins.ne_cons .none rfl (by decide) rest)
          · exact congrArg (0, ·) front
  | cons blanks signs hypothesis =>
      cases steps with
      | zero => cases enough
      | succ steps =>
          have front :
              trimStart (before.text ++ (signsText (blanks :: signs) ++ text)) =
                '!' :: (blanks.text ++ (signsText signs ++ text)) := by
            rw [signsText_cons, List.cons_append, List.append_assoc,
              trimStart_pad ⟨'!', _, rfl, rfl⟩]
          -- No sign is taken for the first character of an operator.
          have unlike :
              (blanks.text ++ (signsText signs ++ text)).head? ≠ some '=' := by
            intro equal
            rcases List.head?_eq_some_iff.mp equal with ⟨rest, same⟩
            exact (begins_signs signs begins).ne_cons blanks rfl (by decide) rest
              same
          rw [dropNegations, front]
          simp only [beq_iff_eq, unlike, if_false,
            hypothesis (Nat.le_of_succ_le_succ enough) blanks, List.length_cons]

theorem length_le_length_signsText (signs : List Blanks) :
    signs.length ≤ (signsText signs).length := by
  induction signs with
  | nil => exact Nat.le_refl _
  | cons blanks signs hypothesis =>
      rw [signsText_cons, List.length_cons, List.length_cons, List.length_append]
      omega

/-- As many signs are taken off as there are, and the operand is left. -/
theorem dropNegations_negation (signs : List Blanks)
    (operand : Phrase .comparison) :
    dropNegations (Phrase.negation signs operand).text.length
        (Phrase.negation signs operand).text =
      (signs.length, operand.text) := by
  have enough : signs.length ≤ (signsText signs ++ operand.text).length := by
    rw [List.length_append]
    exact Nat.le_trans (length_le_length_signsText signs) (Nat.le_add_right _ _)
  exact dropNegations_signs signs operand.begins enough .none

/-- Signs of negation are read together, as one negation of their number. -/
theorem ofTrimmed_negation (blanks : Blanks) (signs : List Blanks)
    (operand : Phrase .comparison) :
    Expression.ofTrimmed (Phrase.negation (blanks :: signs) operand).text =
      .negation (signs.length + 1) (Expression.ofTrimmed operand.text) := by
  rw [ofTrimmed_of_closes (Phrase.closes _) (Phrase.starts _),
    dropNegations_negation, List.length_cons, Expression.ofSigned,
    operand.trim_text, operand.starts.isEmpty, if_neg Bool.false_ne_true,
    operand.ofText_text]

/-- A phrase without signs is read from its comparison on. -/
theorem ofTrimmed_comparison (phrase : Phrase .comparison) :
    Expression.ofTrimmed phrase.text = Expression.ofUnsigned phrase.text := by
  have counted := dropNegations_negation [] phrase
  rw [Phrase.text, signsText, List.flatMap_nil, List.nil_append] at counted
  rw [ofTrimmed_of_closes phrase.closes phrase.starts, counted]
  rfl

/-! ## Comparisons -/

/-- A comparison is divided at its operator. -/
theorem ofTrimmed_compared (equal : Bool) (left : Phrase .membership)
    (before after : Blanks) (right : Phrase .membership) :
    Expression.ofTrimmed (Phrase.compared equal left before after right).text =
      .comparison equal (Expression.ofTrimmed left.text)
        (Expression.ofTrimmed right.text) := by
  have closes := left.closes.append before.closes
  have sides : comparison? (Phrase.compared equal left before after right).text =
      some (equal, left.text, right.text) := by
    cases equal with
    | false =>
        have hides : Hides isOrdinary differentOperator := ⟨by decide, by decide⟩
        have cutting := hides.cutAt_eq_some closes (after.text ++ right.text)
        simp only [comparison?, Phrase.text, comparisonOperator,
          Bool.false_eq_true, if_false, cutting, left.trim_ahead,
          right.trim_behind]
    | true =>
        have hides : Hides isOrdinary equalOperator := ⟨by decide, by decide⟩
        have hidden : Hides (· != '!') differentOperator := ⟨by decide, by decide⟩
        have weaker (character : Char) (ordinary : isOrdinary character = true) :
            (character != '!') = true := ne_of_isOrdinary ordinary (by decide)
        -- The other operator is searched for first, on both sides.
        have operator : Closes (· != '!') equalOperator :=
          Scans.of_neutral (List.all_eq_true.mp rfl) fun _ =>
            List.all_eq_true.mp rfl
        have missed :=
          hidden.cutAt_eq_none
            (((closes.weaken weaker).append operator).append
              ((after.closes.weaken weaker).append (right.closes.weaken weaker)))
        have cutting := hides.cutAt_eq_some closes (after.text ++ right.text)
        simp only [comparison?, Phrase.text, comparisonOperator, if_true, missed,
          cutting, Option.map_some, left.trim_ahead, right.trim_behind]
  rw [ofTrimmed_comparison, Expression.ofUnsigned, sides]
  simp only [left.starts.isEmpty, right.starts.isEmpty, Bool.or_self,
    Bool.false_eq_true, if_false, left.ofText_text, right.ofText_text]

/-- A phrase without a comparison is read from its membership on. -/
theorem ofTrimmed_membership (phrase : Phrase .membership) :
    Expression.ofTrimmed phrase.text = Expression.ofUncompared phrase.text := by
  have different : Hides isOrdinary differentOperator := ⟨by decide, by decide⟩
  have same : Hides isOrdinary equalOperator := ⟨by decide, by decide⟩
  have sides : comparison? phrase.text = none := by
    rw [comparison?, different.cutAt_eq_none phrase.closes,
      same.cutAt_eq_none phrase.closes]
    rfl
  have uncompared := ofTrimmed_comparison (.uncompared phrase)
  rw [Phrase.text] at uncompared
  rw [uncompared, Expression.ofUnsigned, sides]

/-! ## Membership tests -/

/-- The operator has its only dot at its front and its only parenthesis at its
end, so that it begins nowhere in front of a dot. -/
theorem dropStart?_membershipOperator {later rest : List Char}
    (nonempty : later ≠ [])
    (unparenthesized : ∀ character ∈ later, character ≠ '(')
    (resumes : ∀ character ∈ rest.head?, character = '.') :
    dropStart? membershipOperator (later ++ rest) = none := by
  rw [← Option.not_isSome_iff_eq_none, Option.isSome_iff_exists]
  rintro ⟨more, found⟩
  rcases List.append_eq_append_iff.mp (eq_append_of_dropStart? found) with
    ⟨others, operator, equal⟩ | ⟨others, equal, -⟩
  · cases later with
    | nil => exact nonempty rfl
    | cons first later =>
        have letters := (List.cons.inj operator).2
        cases others with
        | nil =>
            have parenthesis : '(' ∈ first :: later := by
              rw [← List.append_nil (first :: later), ← operator]
              decide
            exact unparenthesized '(' parenthesis rfl
        | cons second others =>
            rcases resumes second (by rw [equal]; rfl) with rfl
            have dot : '.' ∈ ['i', 'n', 'c', 'l', 'u', 'd', 'e', 's', '('] := by
              rw [letters]
              exact List.mem_append_right _ List.mem_cons_self
            exact absurd dot (by decide)
  · have parenthesis : '(' ∈ later := by
      rw [equal]
      exact List.mem_append_left _ (by decide)
    exact unparenthesized '(' parenthesis rfl

/-- The operator of a membership is not found in a leaf, only behind it. -/
theorem IsLeaf.cutAt_membershipOperator {text : List Char} {tree : Expression}
    (leaf : IsLeaf text tree) (blanks : Blanks) (rest : List Char)
    (resumes : ∀ character ∈ rest.head?, character = '.') :
    cutAt membershipOperator (text ++ blanks.text ++ rest) =
      (cutAt membershipOperator rest).map fun parts =>
        (text ++ blanks.text ++ parts.1, parts.2) := by
  have unparenthesized : ∀ character ∈ text ++ blanks.text, character ≠ '(' := by
    intro character member
    rcases List.mem_append.mp member with member | member
    · exact (leaf.unparenthesized character member).1
    · have blank := blanks.blank character member
      exact (unparenthesized_of_isOrdinary (isOrdinary_of_isBlank blank)).1
  exact Scans.cutTopLevel_append_of_missed (leaf.closes.append blanks.closes)
    fun later within nonempty =>
      dropStart?_membershipOperator nonempty
        (fun character member => unparenthesized character (within.mem member))
        resumes

/-- A search for a membership test passes over an operand: what is in parentheses
is out of its sight, and what is not in them has no parenthesis. -/
theorem Phrase.cutAt_membershipOperator (phrase : Phrase .operand)
    (blanks : Blanks) (rest : List Char)
    (resumes : ∀ character ∈ rest.head?, character = '.') :
    cutAt membershipOperator (phrase.text ++ blanks.text ++ rest) =
      (cutAt membershipOperator rest).map fun parts =>
        (phrase.text ++ blanks.text ++ parts.1, parts.2) := by
  cases phrase with
  | wrapped before content after =>
      have hides : Hides isBlank membershipOperator := ⟨by decide, by decide⟩
      have inside := ((before.closes_at (.chain .or)).append content.closes).append
        (after.closes_at _)
      have spacing : Closes isBlank blanks.text :=
        Scans.of_neutral
          (fun character member =>
            isNeutral_of_isOrdinary
              (isOrdinary_of_isBlank (blanks.blank character member)))
          fun _ => blanks.blank
      exact Scans.cutTopLevel_append (inside.wrap.append spacing) hides
  | data literal =>
      exact literal.isLeaf.cutAt_membershipOperator blanks rest resumes
  | quoted quotation =>
      exact quotation.isLeaf.cutAt_membershipOperator blanks rest resumes
  | variableAt reference =>
      exact reference.isLeaf.cutAt_membershipOperator blanks rest resumes

/-- An operand is not read as a membership. -/
theorem membership?_operand (phrase : Phrase .operand) :
    membership? phrase.text = none := by
  have passed := phrase.cutAt_membershipOperator .none [] nofun
  simp only [Blanks.none, List.append_nil, cutAt, cutTopLevel, Option.map_none]
    at passed
  rw [membership?, cutAt, passed, Option.map_none]

/-- The item of a membership stands between its parentheses. -/
theorem argument_member (after : Blanks) (item : Phrase (.chain .or))
    (last : Blanks) (steps : Nat) :
    dropEnd? [')']
        (trim
          (dropMembership steps (after.text ++ item.text ++ last.text ++ [')']))) =
      some (item.text ++ last.text) := by
  have untouched :
      dropMembership steps (after.text ++ item.text ++ last.text ++ [')']) =
        after.text ++ (item.text ++ last.text ++ [')']) := by
    have same : after.text ++ item.text ++ last.text ++ [')'] =
        after.text ++ (item.text ++ last.text ++ [')']) := by
      simp only [List.append_assoc]
    have missed : dropStart? membershipOperator
        (after.text ++ (item.text ++ last.text ++ [')'])) = none := by
      rw [← Option.not_isSome_iff_eq_none, Option.isSome_iff_exists]
      rintro ⟨rest, found⟩
      exact ((item.begins.append _).append _).ne_cons after rfl (by decide) _
        (eq_append_of_dropStart? found)
    rw [same]
    cases steps with
    | zero => rfl
    | succ steps => rw [dropMembership, missed]
  have starts : Starts (item.text ++ last.text ++ [')']) :=
    ((item.begins.append _).append _).starts fun _ => Level.isBlank_of_begins _
  have trimmed := trim_pad starts (.of_last _ rfl) after .none
  rw [Blanks.none, List.append_nil] at trimmed
  rw [untouched, trimmed, dropEnd?_append]

/-- A membership is read as that of its item in its collection. -/
theorem ofTrimmed_member (collection : Phrase .operand) (before after : Blanks)
    (item : Phrase (.chain .or)) (last : Blanks) :
    Expression.ofTrimmed (Phrase.member collection before after item last).text =
      .membership (Expression.ofTrimmed collection.text)
        (Expression.ofTrimmed item.text) := by
  have parts : membership? (Phrase.member collection before after item last).text =
      some (collection.text ++ before.text, some (item.text ++ last.text)) := by
    have hides : Hides isBlank membershipOperator := ⟨by decide, by decide⟩
    rw [membership?, Phrase.text, List.append_assoc _ membershipOperator,
      collection.cutAt_membershipOperator before _ (by rintro _ ⟨⟩; rfl),
      hides.cutAt_operator, Option.map_some, Option.map_some, argument_member,
      List.append_nil]
  rw [ofTrimmed_membership, Expression.ofUncompared, parts]
  simp only [item.trim_ahead, item.starts.isEmpty, Bool.false_eq_true, if_false,
    Expression.ofText_eq, collection.trim_ahead]

/-! ## Operands -/

theorem ofTrimmed_operand (phrase : Phrase .operand) :
    Expression.ofTrimmed phrase.text =
      match unwrap? phrase.text with
      | some content => Expression.ofText content
      | none => readLeaf phrase.text := by
  have unjoined := ofTrimmed_membership (.plain phrase)
  rw [Phrase.text] at unjoined
  rw [unjoined, Expression.ofUncompared, membership?_operand]

/-- Parentheses around a phrase are taken off. -/
theorem ofTrimmed_wrapped (before : Blanks) (content : Phrase (.chain .or))
    (after : Blanks) :
    Expression.ofTrimmed (Phrase.wrapped before content after).text =
      Expression.ofTrimmed content.text := by
  have balanced :=
    ((before.balanced.append content.balanced).append after.balanced) 0 []
  rw [List.append_nil] at balanced
  have unwrapped : unwrap? (Phrase.wrapped before content after).text =
      some (before.text ++ content.text ++ after.text) := by
    rw [unwrap?, Phrase.text, List.append_assoc, dropStart?_append]
    simp only [dropEnd?_append, balanced, unwrap?.balanced, if_true]
  rw [ofTrimmed_operand, unwrapped]
  simp only [Expression.ofText_eq, content.trim_around]

theorem Phrase.ofTrimmed_of_isLeaf (phrase : Phrase .operand) {tree : Expression}
    (leaf : IsLeaf phrase.text tree) :
    Expression.ofTrimmed phrase.text = tree := by
  have unwrapped : unwrap? phrase.text = none := by
    rcases leaf.begins with ⟨first, rest, equal, -⟩
    have unlike : first ≠ '(' :=
      (leaf.unparenthesized first (by rw [equal]; exact List.mem_cons_self)).1
    rw [unwrap?, equal, dropStart?, if_neg unlike.symm]
  rw [ofTrimmed_operand, unwrapped]
  exact leaf.reads

/-! ## Phrases and sentences -/

/-- The text of a phrase is read as its tree, and those of the operands of a chain
as theirs. -/
theorem Phrase.reads {level : Level} (phrase : Phrase level) :
    Expression.ofTrimmed phrase.text = phrase.expression ∧
      phrase.texts.map Expression.ofText = phrase.operands := by
  induction phrase with
  | single operand hypothesis =>
      refine ⟨hypothesis.1, ?_⟩
      rw [Phrase.texts, List.map_singleton, operand.ofText_text, hypothesis.1]
      rfl
  | chained first before after others left right =>
      have operands :
          (Phrase.chained first before after others).texts.map Expression.ofText =
            (Phrase.chained first before after others).operands := by
        rw [Phrase.texts, List.map_cons, first.ofText_text, left.1, right.2]
        rfl
      refine ⟨?_, operands⟩
      rw [ofTrimmed_chained, operands]
      rfl
  | negation signs operand hypothesis =>
      refine ⟨?_, rfl⟩
      cases signs with
      | nil => exact hypothesis.1
      | cons blanks signs =>
          rw [ofTrimmed_negation, hypothesis.1]
          rfl
  | uncompared side hypothesis => exact ⟨hypothesis.1, rfl⟩
  | compared equal left before after right first second =>
      refine ⟨?_, rfl⟩
      rw [ofTrimmed_compared, first.1, second.1]
      rfl
  | plain operand hypothesis => exact ⟨hypothesis.1, rfl⟩
  | member collection before after item last whole part =>
      refine ⟨?_, rfl⟩
      rw [ofTrimmed_member, whole.1, part.1]
      rfl
  | wrapped before content after hypothesis =>
      exact ⟨(ofTrimmed_wrapped before content after).trans hypothesis.1, rfl⟩
  | data literal =>
      exact ⟨(Phrase.data literal).ofTrimmed_of_isLeaf literal.isLeaf, rfl⟩
  | quoted quotation =>
      exact ⟨(Phrase.quoted quotation).ofTrimmed_of_isLeaf quotation.isLeaf, rfl⟩
  | variableAt reference =>
      exact ⟨(Phrase.variableAt reference).ofTrimmed_of_isLeaf reference.isLeaf,
        rfl⟩

/-- Braces around a condition are taken off. -/
theorem Sentence.normalize_text (sentence : Sentence) :
    normalize sentence.text = sentence.phrase.text := by
  cases sentence with
  | bare before phrase after =>
      have unbraced : dropStart? wrapperStart phrase.text = none := by
        rcases phrase.begins with ⟨first, rest, equal, -, braced⟩
        rw [equal, wrapperStart, dropStart?]
        split
        · next brace =>
            rcases braced brace.symm with ⟨second, others, rfl, unlike⟩
            rw [dropStart?, if_neg unlike.symm]
        · rfl
      rw [normalize, Sentence.text, phrase.trim_around]
      simp only [unbraced, Option.bind_none]
      rfl
  | braced outerBefore before phrase after outerAfter =>
      have starts :
          Starts (wrapperStart ++ (before.text ++ phrase.text ++ after.text) ++
            wrapperEnd) :=
        ⟨'{', _, rfl, rfl⟩
      have ends :
          Ends (wrapperStart ++ (before.text ++ phrase.text ++ after.text) ++
            wrapperEnd) :=
        Ends.prepend (.of_last ['}'] rfl) _
      rw [normalize, Sentence.text, trim_pad starts ends,
        List.append_assoc wrapperStart, dropStart?_append, Option.bind_some,
        dropEnd?_append]
      exact phrase.trim_around before after

/-- The text of a condition is read as the tree of its phrase. -/
theorem Sentence.read_text (sentence : Sentence) :
    read (String.ofList sentence.text) = sentence.phrase.expression := by
  rw [read, String.toList_ofList, sentence.normalize_text]
  simp only [sentence.phrase.starts.isEmpty, Bool.false_eq_true, if_false]
  rw [sentence.phrase.ofText_text, sentence.phrase.reads.1]

end RequestFlow.Condition
