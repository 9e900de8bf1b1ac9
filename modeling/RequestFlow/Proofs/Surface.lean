import RequestFlow.Proofs.Operands

/-!
# The surface of phrases

Outside its brackets a phrase shows no operator of a level above its own; it has
no blanks at its ends and closes the parentheses that it opens.  Main statement: a
scan gets through every phrase without meeting the characters that its level
hides.
-/

namespace RequestFlow.Condition

open RequestFlow.Text

/-! ## What a phrase shows -/

/-- No blanks. -/
def Blanks.none : Blanks :=
  ⟨[], fun _ member => (List.not_mem_nil member).elim⟩

/-- A sign of negation stands in front of the blanks behind it and of the signs
that follow. -/
@[simp] theorem signsText_cons (blanks : Blanks) (signs : List Blanks) :
    signsText (blanks :: signs) = '!' :: (blanks.text ++ signsText signs) := rfl

/-- The characters that a scan may meet outside the brackets of a phrase. -/
def Level.visible : Level → Char → Bool
  | .chain .or, _ => true
  | .chain .and, character => character != '|'
  | .negation, character => character != '|' && character != '&'
  | .comparison, character => character != '|' && character != '&'
  | .membership, character => isOrdinary character
  | .operand, character => isOrdinary character

theorem ne_of_isOrdinary {character : Char}
    (ordinary : isOrdinary character = true) {other : Char}
    (special : isOrdinary other = false) : (character != other) = true := by
  apply bne_iff_ne.mpr
  rintro rfl
  rw [ordinary] at special
  cases special

/-- An ordinary character may be met at every level. -/
theorem Level.visible_of_isOrdinary (level : Level) {character : Char}
    (ordinary : isOrdinary character = true) : level.visible character = true := by
  have bar : (character != '|') = true := ne_of_isOrdinary ordinary (by decide)
  have ampersand : (character != '&') = true :=
    ne_of_isOrdinary ordinary (by decide)
  cases level with
  | chain connective => cases connective with
      | or => rfl
      | and => exact bar
  | negation => exact Bool.and_eq_true_iff.mpr ⟨bar, ampersand⟩
  | comparison => exact Bool.and_eq_true_iff.mpr ⟨bar, ampersand⟩
  | membership => exact ordinary
  | operand => exact ordinary

/-- What may be met in the operands of a connective may be met in the chain of
them. -/
theorem Connective.visible_of_below {connective : Connective} {character : Char}
    (visible : connective.below.visible character = true) :
    (Level.chain connective).visible character = true := by
  cases connective with
  | or => rfl
  | and => exact (Bool.and_eq_true_iff.mp visible).1

/-- In the operands of a connective its operator cannot begin outside of brackets:
its first character is not met there. -/
theorem Connective.hides (connective : Connective) :
    Hides connective.below.visible connective.operator := by
  cases connective <;> exact ⟨by decide, by decide⟩

/-- A scan that gets through two texts gets through both in a row. -/
theorem Closes.append {visible : Char → Bool} {first second : List Char}
    (left : Closes visible first) (right : Closes visible second) :
    Closes visible (first ++ second) :=
  Scans.append left right

/-- A scan that gets through a text still does where more characters may be
met. -/
theorem Closes.weaken {visible wider : Char → Bool} {text : List Char}
    (closes : Closes visible text)
    (weaker : ∀ character, visible character = true → wider character = true) :
    Closes wider text :=
  Scans.weaken weaker closes

theorem Blanks.closes (blanks : Blanks) : Closes isOrdinary blanks.text :=
  scans_of_ordinary fun character member =>
    isOrdinary_of_isBlank (blanks.blank character member)

/-- Blanks are gone through at every level. -/
theorem Blanks.closes_at (blanks : Blanks) (level : Level) :
    Closes level.visible blanks.text :=
  blanks.closes.weaken fun _ => level.visible_of_isOrdinary

/-- The signs of a negation are gone through: an exclamation mark is no operator
unless an equals sign follows. -/
theorem closes_signsText (signs : List Blanks) :
    Closes Level.negation.visible (signsText signs) := by
  induction signs with
  | nil => exact .done
  | cons blanks signs hypothesis =>
      rw [signsText_cons]
      exact .step (.passes (by decide) fun _ => by decide)
        ((blanks.closes_at .negation).append hypothesis)

/-- The operator of a membership opens the parenthesis in which its item stands.
-/
theorem scans_membershipOperator :
    Scans isOrdinary .none 0 membershipOperator .none 1 := by
  have name :
      Scans isOrdinary .none 0 ['.', 'i', 'n', 'c', 'l', 'u', 'd', 'e', 's'] .none
        0 :=
    scans_of_ordinary (List.all_eq_true.mp rfl)
  have parenthesis : Steps isOrdinary .none 0 '(' .none 1 := .opens (by decide)
  exact name.append parenthesis.scans

/-- A scan gets through a phrase. -/
theorem Phrase.closes {level : Level} (phrase : Phrase level) :
    Closes level.visible phrase.text := by
  induction phrase with
  | single operand hypothesis =>
      exact hypothesis.weaken fun _ => Connective.visible_of_below
  | @chained connective first before after others left right =>
      have operator :
          Closes (Level.chain connective).visible connective.operator := by
        cases connective <;>
          exact Scans.of_neutral (List.all_eq_true.mp rfl) fun _ =>
            List.all_eq_true.mp rfl
      have start := left.weaken fun _ => Connective.visible_of_below
      exact ((start.append (before.closes_at _)).append operator).append
        ((after.closes_at _).append right)
  | negation signs operand hypothesis =>
      exact (closes_signsText signs).append hypothesis
  | uncompared side hypothesis =>
      exact hypothesis.weaken fun _ => Level.comparison.visible_of_isOrdinary
  | compared equal left before after right first second =>
      have operator :
          Closes Level.comparison.visible (comparisonOperator equal) := by
        cases equal <;>
          exact Scans.of_neutral (List.all_eq_true.mp rfl) fun _ =>
            List.all_eq_true.mp rfl
      have start := first.weaken fun _ => Level.comparison.visible_of_isOrdinary
      have ending := second.weaken fun _ => Level.comparison.visible_of_isOrdinary
      exact ((start.append (before.closes_at _)).append operator).append
        ((after.closes_at _).append ending)
  | plain operand hypothesis => exact hypothesis
  | member collection before after item last whole part =>
      have argument :=
        ((after.closes_at (.chain .or)).append part).append (last.closes_at _)
      have parenthesis : Steps isOrdinary .none 1 ')' .none 0 :=
        .closes (by decide)
      have inside : Scans isOrdinary .none 1 _ .none 1 := argument.deepen
      exact (Scans.append (whole.append before.closes)
        scans_membershipOperator).append (inside.append parenthesis.scans)
  | wrapped before content after hypothesis =>
      exact (((before.closes_at _).append hypothesis).append
        (after.closes_at _)).wrap
  | data literal => exact literal.isLeaf.closes
  | quoted quotation => exact quotation.isLeaf.closes
  | variableAt reference => exact reference.isLeaf.closes

/-- A character that a phrase of a level may begin with. -/
def Level.begins : Level → Char → Bool
  | .chain _, character => character == '!' || beginsOperand character
  | .negation, character => character == '!' || beginsOperand character
  | _, character => beginsOperand character

theorem Level.begins_of_beginsOperand (level : Level) {character : Char}
    (begins : beginsOperand character = true) : level.begins character = true := by
  cases level <;> simp only [Level.begins, begins, Bool.or_true]

/-- No phrase begins with a blank. -/
theorem Level.isBlank_of_begins (level : Level) {character : Char}
    (begins : level.begins character = true) : isBlank character = false := by
  have either : character = '!' ∨ beginsOperand character = true := by
    cases level <;> simp_all [Level.begins]
  rcases either with rfl | begins
  · rfl
  · exact isBlank_of_beginsOperand begins

/-- A chain begins as its first operand does. -/
theorem Connective.begins_of_below {connective : Connective} {character : Char}
    (begins : connective.below.begins character = true) :
    (Level.chain connective).begins character = true := by
  cases connective <;> exact begins

/-- Every phrase begins with a character of its level, so that none begins with
two braces. -/
theorem Phrase.begins {level : Level} (phrase : Phrase level) :
    Begins level.begins phrase.text := by
  induction phrase with
  | single operand hypothesis =>
      exact hypothesis.weaken fun _ => Connective.begins_of_below
  | chained first before after others left right =>
      have start := left.weaken fun _ => Connective.begins_of_below
      exact ((start.append _).append _).append _
  | negation signs operand hypothesis =>
      cases signs with
      | nil =>
          exact hypothesis.weaken fun _ => Level.negation.begins_of_beginsOperand
      | cons blanks signs => exact .of_unbraced rfl (by decide) _
  | uncompared side hypothesis => exact hypothesis
  | compared equal left before after right first second =>
      exact ((first.append _).append _).append _
  | plain operand hypothesis => exact hypothesis
  | member collection before after item last whole part =>
      exact ((whole.append _).append _).append _
  | wrapped before content after hypothesis => exact .of_unbraced rfl (by decide) _
  | data literal => exact literal.isLeaf.begins
  | quoted quotation => exact quotation.isLeaf.begins
  | variableAt reference => exact reference.isLeaf.begins

theorem Phrase.starts {level : Level} (phrase : Phrase level) :
    Starts phrase.text :=
  phrase.begins.starts fun _ => level.isBlank_of_begins

/-- No phrase ends with a blank. -/
theorem Phrase.ends {level : Level} (phrase : Phrase level) :
    Ends phrase.text := by
  induction phrase with
  | single operand hypothesis => exact hypothesis
  | chained first before after others left right =>
      exact (right.prepend _).prepend _
  | negation signs operand hypothesis => exact hypothesis.prepend _
  | uncompared side hypothesis => exact hypothesis
  | compared equal left before after right first second =>
      exact (second.prepend _).prepend _
  | plain operand hypothesis => exact hypothesis
  | member collection before after item last whole part =>
      have argument : Ends (after.text ++ item.text ++ last.text ++ [')']) :=
        .of_last _ rfl
      exact argument.prepend _
  | wrapped before content after hypothesis => exact .of_last _ rfl
  | data literal => exact literal.isLeaf.ends
  | quoted quotation => exact quotation.isLeaf.ends
  | variableAt reference => exact reference.isLeaf.ends

/-- A text without blanks at its ends is not trimmed. -/
theorem trim_of_tight {text : List Char} (starts : Starts text)
    (ends : Ends text) : trim text = text := by
  have padded := trim_pad starts ends .none .none
  rwa [Blanks.none, List.nil_append, List.append_nil] at padded

section Trimming

variable {level : Level} (phrase : Phrase level)

/-- Blanks on both sides of a phrase are trimmed away, and nothing else is. -/
theorem Phrase.trim_around (before after : Blanks) :
    trim (before.text ++ phrase.text ++ after.text) = phrase.text :=
  trim_pad phrase.starts phrase.ends before after

theorem Phrase.trim_behind (before : Blanks) :
    trim (before.text ++ phrase.text) = phrase.text := by
  simpa [Blanks.none] using phrase.trim_around before .none

theorem Phrase.trim_ahead (after : Blanks) :
    trim (phrase.text ++ after.text) = phrase.text := by
  simpa [Blanks.none] using phrase.trim_around .none after

/-- A phrase by itself is not trimmed. -/
theorem Phrase.trim_text : trim phrase.text = phrase.text :=
  trim_of_tight phrase.starts phrase.ends

end Trimming

/-! ## Parentheses -/

/-- Every parenthesis that a text opens is closed in it, and none else. -/
def Balanced (text : List Char) : Prop :=
  ∀ depth rest, unwrap?.balanced depth (text ++ rest) = unwrap?.balanced depth rest

/-- Two balanced texts are balanced in a row. -/
theorem Balanced.append {first second : List Char} (left : Balanced first)
    (right : Balanced second) : Balanced (first ++ second) := by
  intro depth rest
  rw [List.append_assoc, left, right]

/-- A text without parentheses is balanced. -/
theorem Balanced.of_unparenthesized {text : List Char}
    (unparenthesized : ∀ character ∈ text, character ≠ '(' ∧ character ≠ ')') :
    Balanced text := by
  induction text with
  | nil => exact fun _ _ => rfl
  | cons character text hypothesis =>
      intro depth rest
      rcases unparenthesized character List.mem_cons_self with ⟨opening, closing⟩
      rw [List.cons_append, unwrap?.balanced]
      · exact hypothesis
          (fun other member =>
            unparenthesized other (List.mem_cons_of_mem _ member)) depth rest
      · exact opening
      · exact fun _ => closing
      · exact fun _ _ => closing

theorem Balanced.of_all {text : List Char}
    (all :
      text.all (fun character => character != '(' && character != ')') = true) :
    Balanced text := by
  refine .of_unparenthesized fun character member => ?_
  have passes := List.all_eq_true.mp all character member
  simpa using passes

/-- A balanced text is balanced in parentheses, too. -/
theorem Balanced.wrap {text : List Char} (balanced : Balanced text) :
    Balanced (['('] ++ text ++ [')']) := by
  intro depth rest
  rw [List.append_assoc, List.append_assoc, List.singleton_append,
    unwrap?.balanced, balanced]
  rfl

theorem Blanks.balanced (blanks : Blanks) : Balanced blanks.text :=
  .of_unparenthesized fun character member =>
    unparenthesized_of_isOrdinary
      (isOrdinary_of_isBlank (blanks.blank character member))

theorem balanced_signsText (signs : List Blanks) : Balanced (signsText signs) := by
  induction signs with
  | nil => exact fun _ _ => rfl
  | cons blanks signs hypothesis =>
      have sign : Balanced ['!'] := .of_all rfl
      exact sign.append (blanks.balanced.append hypothesis)

/-- The parentheses of a phrase are balanced; its texts in quotes have none. -/
theorem Phrase.balanced {level : Level} (phrase : Phrase level) :
    Balanced phrase.text := by
  induction phrase with
  | single operand hypothesis => exact hypothesis
  | @chained connective first before after others left right =>
      have operator : Balanced connective.operator := by
        cases connective <;> exact .of_all rfl
      exact ((left.append before.balanced).append operator).append
        (after.balanced.append right)
  | negation signs operand hypothesis =>
      exact (balanced_signsText signs).append hypothesis
  | uncompared side hypothesis => exact hypothesis
  | compared equal left before after right first second =>
      have operator : Balanced (comparisonOperator equal) := by
        cases equal <;> exact .of_all rfl
      exact ((first.append before.balanced).append operator).append
        (after.balanced.append second)
  | plain operand hypothesis => exact hypothesis
  | member collection before after item last whole part =>
      have name : Balanced ['.', 'i', 'n', 'c', 'l', 'u', 'd', 'e', 's'] :=
        .of_all rfl
      have argument := ((after.balanced.append part).append last.balanced).wrap
      have test := (whole.append before.balanced).append (name.append argument)
      simpa [Phrase.text, membershipOperator] using test
  | wrapped before content after hypothesis =>
      exact ((before.balanced.append hypothesis).append after.balanced).wrap
  | data literal => exact .of_unparenthesized literal.isLeaf.unparenthesized
  | quoted quotation => exact .of_unparenthesized quotation.isLeaf.unparenthesized
  | variableAt reference =>
      exact .of_unparenthesized reference.isLeaf.unparenthesized

end RequestFlow.Condition
