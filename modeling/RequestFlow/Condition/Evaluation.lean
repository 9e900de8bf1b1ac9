import RequestFlow.Condition.Reading
import RequestFlow.Scope.Layers

/-!
# Evaluating conditions

A condition is evaluated from left to right, and no further than its value needs:
alternatives stop at the first true operand, conjunctions at the first false one,
and everything at the first error.
-/

namespace RequestFlow.Condition

/-- What a condition is evaluated with. -/
structure Setting where
  line : Nat
  bindings : Scope
  typed : Bindings

/-- The error of a fault at the condition's line. -/
def Setting.error {Result : Type} (setting : Setting) (fault : Fault) :
    Except ValueError Result :=
  .error (.evaluation setting.line fault.message)

/-- The value of a variable's text: what is written as a list or an object is one,
all else is text. -/
def decode (text : String) : Value :=
  let trimmed := Text.trim text.toList
  if trimmed.head? == some '[' || trimmed.head? == some '{' then
    match Json.read trimmed with
    | .ok value => .data value
    | .error _ => .ofText text
  else .ofText text

/-- The value of a variable: from the typed value of its first name, else by its
whole name. -/
def Setting.variableValue (setting : Setting) (text : List Char) (path : Path) :
    Except ValueError Value :=
  let flat : Except ValueError Value :=
    match setting.bindings.lookup (String.ofList text) with
    | some found => .ok (decode found)
    | none => setting.error (.unknownVariable (String.ofList text))
  match setting.typed.get? (String.ofList path.head.name) with
  | some (.data value) => .ok (.data (path.follow value))
  | some (.host typeName) =>
      if path.tail.isEmpty && path.head.indexes.isEmpty then .ok (.host typeName)
      else flat
  | _ => flat

/-- A text has a part, or a list an item. -/
def includes (collection item : Value) : Except ValueError Value :=
  match collection with
  | .data (.string whole) =>
      item.text.map fun part => .ofBool (Text.contains whole.toList part.toList)
  | other =>
      other.items.map fun items =>
        .ofBool (items.any fun member => member.equals item)

mutual

/-- The value of a condition. -/
def evaluate (setting : Setting) : Expression → Except ValueError Value
  | .malformed fault => setting.error fault
  | .disjunction operands => anyTruthy setting operands
  | .conjunction operands => allTruthy setting operands
  | .negation count operand =>
      match evaluate setting operand with
      | .error failure => .error failure
      | .ok value =>
          .ok (.ofBool (if count % 2 = 1 then !value.isTruthy else value.isTruthy))
  | .comparison equal left right =>
      match evaluate setting left with
      | .error failure => .error failure
      | .ok first =>
          match evaluate setting right with
          | .error failure => .error failure
          | .ok second => .ok (.ofBool (first.equals second == equal))
  | .membership collection item =>
      match evaluate setting collection with
      | .error failure => .error failure
      | .ok first =>
          match evaluate setting item with
          | .error failure => .error failure
          | .ok second => includes first second
  | .literal value => .ok (.data value)
  | .variableAt text path => setting.variableValue text path

/-- Whether an operand is true; those behind the first true one are not
evaluated. -/
def anyTruthy (setting : Setting) : List Expression → Except ValueError Value
  | [] => .ok (.ofBool false)
  | operand :: operands =>
      match evaluate setting operand with
      | .error failure => .error failure
      | .ok value =>
          if value.isTruthy then .ok (.ofBool true) else anyTruthy setting operands

/-- Whether all operands are true; those behind the first false one are not
evaluated. -/
def allTruthy (setting : Setting) : List Expression → Except ValueError Value
  | [] => .ok (.ofBool true)
  | operand :: operands =>
      match evaluate setting operand with
      | .error failure => .error failure
      | .ok value =>
          if value.isTruthy then allTruthy setting operands
          else .ok (.ofBool false)

end

/-- Where a condition stands in a step. -/
inductive Role where
  | guard
  | loop
  | branch
  | otherBranch
  | subject
  | alternative
  deriving DecidableEq

/-- The written form of a role. -/
def Role.text : Role → String
  | guard => "@when"
  | loop => "@for-each"
  | branch => "@if"
  | otherBranch => "@elif"
  | subject => "@switch"
  | alternative => "@case"

/-- A condition put to an evaluator. -/
structure Query where
  workflow : String
  /-- The number of the step, from one. -/
  step : Nat
  role : Role
  line : Nat
  text : String
  bindings : Scope
  typed : Bindings

/-- Anything that answers queries. -/
abbrev Evaluator := Query → Except ValueError Value

/-- The evaluator of the condition language. -/
def evaluator : Evaluator := fun query =>
  evaluate ⟨query.line, query.bindings, query.typed⟩ (read query.text)

end RequestFlow.Condition
