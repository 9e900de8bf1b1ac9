import Mathlib.Data.List.Infix
import RequestFlow.Condition.Evaluation

/-!
# The grammar of conditions

The phrases of the condition language, level by level, from alternatives down to
operands; the text that writes a phrase, with blanks wherever they may stand; and
the meaning of a phrase, which is defined on the phrase alone and knows nothing of
how a text is read.
-/

namespace RequestFlow.Condition

/-! ## Words -/

/-- Blank characters, or none. -/
structure Blanks where
  text : List Char
  blank : ∀ character ∈ text, Text.isBlank character = true

/-- A character that a literal or a text in quotes may have anywhere. -/
def isPlain (character : Char) : Bool :=
  character != '\'' && character != '\\' && character != '(' && character != ')'

/-- A text in single quotes. -/
structure Quotation where
  text : List Char
  plain : ∀ character ∈ text, isPlain character = true ∧ character ≠ '"'

/-- A written piece of data. -/
structure Literal where
  text : List Char
  strictness : Json.Strictness
  tree : Json.Syntax
  written : Json.Syntax.read strictness text = .ok tree
  plain : ∀ character ∈ text, isPlain character = true
  tight : Text.trim text = text

/-- A path to a variable that is written neither like a number nor like a
constant. -/
structure Reference where
  text : List Char
  path : Path
  read : Path.ofText? text = some path
  named : ∀ character rest, text = character :: rest →
    character ≠ '-' ∧ character.isDigit = false
  unreserved : text ≠ ['n', 'u', 'l', 'l'] ∧ text ≠ ['t', 'r', 'u', 'e'] ∧
    text ≠ ['f', 'a', 'l', 's', 'e']

/-! ## Phrases -/

/-- What joins the operands of a chain. -/
inductive Connective where
  | or
  | and
  deriving DecidableEq

/-- The levels of phrases; only chains come in two kinds. -/
inductive Level where
  | chain (connective : Connective)
  | negation
  | comparison
  | membership
  | operand
  deriving DecidableEq

namespace Connective

/-- The level of the operands of a chain. -/
def below : Connective → Level
  | or => .chain .and
  | and => .negation

/-- The operator between the operands. -/
def operator : Connective → List Char
  | or => orOperator
  | and => andOperator

/-- The truth of an operand that decides the chain. -/
def decisive : Connective → Bool
  | or => true
  | and => false

end Connective

/-- The operator of a comparison. -/
def comparisonOperator (equal : Bool) : List Char :=
  if equal then equalOperator else differentOperator

/-- A phrase of a level. -/
inductive Phrase : Level → Type where
  | single {connective : Connective} (operand : Phrase connective.below) :
      Phrase (.chain connective)
  | chained {connective : Connective} (first : Phrase connective.below)
      (before after : Blanks) (others : Phrase (.chain connective)) :
      Phrase (.chain connective)
  /-- So many negations, each with the blanks behind it. -/
  | negation (signs : List Blanks) (operand : Phrase .comparison) :
      Phrase .negation
  | uncompared (side : Phrase .membership) : Phrase .comparison
  | compared (equal : Bool) (left : Phrase .membership) (before after : Blanks)
      (right : Phrase .membership) : Phrase .comparison
  | plain (operand : Phrase .operand) : Phrase .membership
  | member (collection : Phrase .operand) (before after : Blanks)
      (item : Phrase (.chain .or)) (last : Blanks) : Phrase .membership
  | wrapped (before : Blanks) (content : Phrase (.chain .or)) (after : Blanks) :
      Phrase .operand
  | data (literal : Literal) : Phrase .operand
  | quoted (quotation : Quotation) : Phrase .operand
  | variableAt (reference : Reference) : Phrase .operand

/-- The text of negations. -/
def signsText (signs : List Blanks) : List Char :=
  signs.flatMap fun blanks => '!' :: blanks.text

namespace Phrase

/-- The text that writes a phrase. -/
def text : {level : Level} → Phrase level → List Char
  | _, single operand => operand.text
  | _, @chained connective first before after others =>
      first.text ++ before.text ++ connective.operator ++
        (after.text ++ others.text)
  | _, negation signs operand => signsText signs ++ operand.text
  | _, uncompared side => side.text
  | _, compared equal left before after right =>
      left.text ++ before.text ++ comparisonOperator equal ++
        (after.text ++ right.text)
  | _, plain operand => operand.text
  | _, member collection before after item last =>
      collection.text ++ before.text ++ membershipOperator ++
        (after.text ++ item.text ++ last.text ++ [')'])
  | _, wrapped before content after =>
      ['('] ++ (before.text ++ content.text ++ after.text) ++ [')']
  | _, data literal => literal.text
  | _, quoted quotation => ['\''] ++ quotation.text ++ ['\'']
  | _, variableAt reference => reference.text

end Phrase

/-! ## Meaning -/

/-- A collection has an item: a text as a part of it, a list as an equal member. -/
def membershipOf (collection item : Value) : Except ValueError Value :=
  match collection with
  | .data (.string whole) =>
      item.text.map fun part => .ofBool (decide (part.toList <:+: whole.toList))
  | other =>
      other.items.map fun items =>
        .ofBool (items.any fun member => member.equals item)

/-- The value that a literal writes. -/
def Literal.meaning (setting : Setting) (literal : Literal) :
    Except ValueError Value :=
  match Json.read literal.text with
  | .ok value => .ok (.data value)
  | .error failure =>
      setting.error
        (.invalidLiteral (String.ofList literal.text)
          (failure.message literal.text))

/-- The value of a phrase: operands are evaluated from left to right, those of a
chain up to the first one that decides it, and the first error that is met is the
result. -/
def Phrase.meaning (setting : Setting) :
    {level : Level} → Phrase level → Except ValueError Value
  | _, .single operand => operand.meaning setting
  | _, @Phrase.chained connective first _ _ others => do
      let value ← first.meaning setting
      if value.isTruthy = connective.decisive then
        return .ofBool connective.decisive
      else
        let rest ← others.meaning setting
        return .ofBool rest.isTruthy
  | _, .negation [] operand => operand.meaning setting
  | _, .negation (blanks :: signs) operand => do
      let value ← operand.meaning setting
      return .ofBool (if (blanks :: signs).length % 2 = 1 then !value.isTruthy
      else value.isTruthy)
  | _, .uncompared side => side.meaning setting
  | _, .compared equal left _ _ right => do
      let first ← left.meaning setting
      let second ← right.meaning setting
      return .ofBool (first.equals second == equal)
  | _, .plain operand => operand.meaning setting
  | _, .member collection _ _ item _ => do
      let whole ← collection.meaning setting
      let part ← item.meaning setting
      membershipOf whole part
  | _, .wrapped _ content _ => content.meaning setting
  | _, .data literal => literal.meaning setting
  | _, .quoted quotation => .ok (.ofText (String.ofList quotation.text))
  | _, .variableAt reference => setting.variableValue reference.text reference.path

/-! ## Sentences -/

/-- A whole condition: a phrase, with or without a wrapper of double braces. -/
inductive Sentence where
  | bare (before : Blanks) (phrase : Phrase (.chain .or)) (after : Blanks)
  | braced (outerBefore before : Blanks) (phrase : Phrase (.chain .or))
      (after outerAfter : Blanks)

namespace Sentence

/-- The phrase of a condition. -/
def phrase : Sentence → Phrase (.chain .or)
  | bare _ phrase _ => phrase
  | braced _ _ phrase _ _ => phrase

/-- The text of a condition. -/
def text : Sentence → List Char
  | bare before phrase after => before.text ++ phrase.text ++ after.text
  | braced outerBefore before phrase after outerAfter =>
      outerBefore.text ++
        (wrapperStart ++ (before.text ++ phrase.text ++ after.text) ++
          wrapperEnd) ++ outerAfter.text

end Sentence

end RequestFlow.Condition
