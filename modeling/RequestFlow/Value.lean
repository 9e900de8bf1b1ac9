import RequestFlow.Json.Printer
import RequestFlow.Text.Blank
import RequestFlow.Text.Caseless

/-!
# Values of conditions

A condition yields data, a reference to something of the host that is no data, or
a list of values. The run relies on four things only: whether a value counts as
true, when two values are equal, the items of a list, and the text of a value.
-/

namespace RequestFlow

/-- What a condition yields. -/
inductive Value where
  | data (value : Json)
  /-- Something of the host, known by the name of its type. -/
  | host (typeName : String)
  /-- A list whose items need not be data. -/
  | list (items : List Value)

/-- Why a condition yields no value, or a value not what is asked of it. -/
inductive ValueError where
  /-- The condition at a line cannot be evaluated. -/
  | evaluation (line : Nat) (message : String)
  | notAList (found : String)
  | notConvertible (typeName : String)
  deriving DecidableEq

namespace ValueError

/-- The wording of a place in the document; line 0 is no line. -/
def lineText (line : Nat) : String :=
  if line = 0 then "<unknown line>" else s!"line {line}"

/-- The wording of an error. -/
def message : ValueError → String
  | evaluation line message => s!"{lineText line}: {message}"
  | notAList found => s!"expected a list, got {found}"
  | notConvertible typeName => s!"cannot convert {typeName} value to text"

end ValueError

namespace Value

instance : Inhabited Value := ⟨data .null⟩

/-- A truth value. -/
def ofBool (value : Bool) : Value :=
  data (.bool value)

/-- A text. -/
def ofText (text : String) : Value :=
  data (.string text)

/-- The name of the value's type. -/
def typeName : Value → String
  | data .null => "null"
  | data (.bool _) => "bool"
  | data (.number _) => "number"
  | data (.string _) => "string"
  | data (.array _) => "list"
  | data (.object _) => "map"
  | host typeName => typeName
  | list _ => "list"

/-- The value counts as true: null, false, zero, blank texts, the text `false` and
what is empty do not. -/
def isTruthy : Value → Bool
  | data .null => false
  | data (.bool value) => value
  | data (.number value) => value.isNonzero
  | data (.string value) =>
      let trimmed := Text.trimmed value
      !trimmed.isEmpty && !Text.sameLetters trimmed "false"
  | data (.array items) => !items.isEmpty
  | data (.object fields) => !fields.isEmpty
  | host _ => true
  | list items => !items.isEmpty

/-- Two pieces of data are equal: numbers by their binary64 value, a text and a
number or a truth value by the text of both, and all else when it is the same
data. -/
def equalData : Json → Json → Bool
  | .number left, .number right => left.toReal.sameValue right.toReal
  | .string text, .number value => Text.trimmed text == value.text
  | .number value, .string text => Text.trimmed text == value.text
  | .string text, .bool value => Text.trimmed text == toString value
  | .bool value, .string text => Text.trimmed text == toString value
  | left, right => left.sameAs right

/-- Two values are equal: only data is. -/
def equals : Value → Value → Bool
  | data left, data right => equalData left right
  | _, _ => false

/-- The items of a list. -/
def items : Value → Except ValueError (List Value)
  | data (.array items) => .ok (items.map data)
  | list items => .ok items
  | other => .error (.notAList other.typeName)

/-- The data of a list of values. -/
def dataOf : List Value → Except ValueError (List Json)
  | [] => .ok []
  | data value :: values => (dataOf values).map (value :: ·)
  | other :: _ => .error (.notConvertible s!"list of {other.typeName}")

/-- The text of a piece of data: texts as they are, null as nothing, all else as
it is written. -/
def dataText : Json → String
  | .null => ""
  | .string value => value
  | other => other.text

/-- The text of a value. -/
def text : Value → Except ValueError String
  | data value => .ok (dataText value)
  | host typeName => .error (.notConvertible typeName)
  | list items => (dataOf items).map fun values => dataText (.array values)

@[simp]
theorem isTruthy_ofBool (value : Bool) : (ofBool value).isTruthy = value :=
  rfl

@[simp] theorem equals_host (typeName : String) (other : Value) :
    (host typeName).equals other = false := by
  cases other <;> rfl

end Value

end RequestFlow
