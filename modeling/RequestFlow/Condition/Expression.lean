import RequestFlow.Condition.Path
import RequestFlow.Json.Token

/-!
# Conditions

The syntax of the condition language: alternatives, conjunctions, negations,
comparisons, membership, literals and variables.  A part of a text that is no
condition is a part of the tree as well, so that it matters only when it is
evaluated.
-/

namespace RequestFlow.Condition

/-- What can be wrong with a condition. -/
inductive Fault where
  | empty
  | emptyOperand
  | danglingNegation
  | missingSide
  /-- The parenthesis of a membership test is open. -/
  | unclosedMembership
  /-- A membership test has no argument. -/
  | missingArgument
  | invalidLiteral (text detail : String)
  /-- A text is no condition at all. -/
  | unsupported (text : String)
  | unknownVariable (name : String)
  deriving DecidableEq

/-- The wording of a fault. -/
def Fault.message : Fault → String
  | empty => "expression cannot be empty"
  | emptyOperand => "operand cannot be empty"
  | danglingNegation => "expression cannot end with negation operator"
  | missingSide =>
      "comparison expression must include both left and right operands"
  | unclosedMembership => "includes expression is missing a closing parenthesis"
  | missingArgument => "includes expression is missing an argument"
  | invalidLiteral text detail => s!"invalid literal '{text}': {detail}"
  | unsupported text => s!"unsupported expression '{text}'"
  | unknownVariable name => s!"unknown variable '{name}'"

/-- The tree of a condition. -/
inductive Expression where
  /-- A part that is no condition. -/
  | malformed (fault : Fault)
  /-- True as soon as an operand is. -/
  | disjunction (operands : List Expression)
  /-- False as soon as an operand is. -/
  | conjunction (operands : List Expression)
  | negation (count : Nat) (operand : Expression)
  | comparison (equal : Bool) (left right : Expression)
  /-- A text has a part, or a list an item. -/
  | membership (collection item : Expression)
  | literal (value : Json)
  /-- A variable, as written and as a path. -/
  | variableAt (text : List Char) (path : Path)

instance : Inhabited Expression := ⟨.malformed .empty⟩

end RequestFlow.Condition
