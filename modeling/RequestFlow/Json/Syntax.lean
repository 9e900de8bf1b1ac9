import RequestFlow.Json.Value
import RequestFlow.Text.Digits

/-!
# Written data

The syntax tree of a data text: objects keep their fields in the order in which
they are written, also repeated ones.  A leaf is absent when its text is well
formed but stands for no value: a number beyond the range of binary64 or a text
with half of a surrogate pair.
-/

namespace RequestFlow.Json

/-- The syntax tree of a data text. -/
inductive Syntax where
  | null
  | bool (value : Bool)
  /-- A number, if it is within range. -/
  | number (value : Option Number)
  /-- A text, if its surrogates are paired. -/
  | string (value : Option String)
  | array (items : List Syntax)
  /-- Named parts as written. -/
  | object (fields : List (Option String × Syntax))

namespace Syntax

instance : Inhabited Syntax := ⟨null⟩

mutual

/-- The value that a syntax tree stands for; an absent leaf counts as null, an
absent name as empty. -/
def toJson : Syntax → Json
  | null => .null
  | bool value => .bool value
  | number value => (value.map Json.number).getD .null
  | string value => (value.map Json.string).getD .null
  | array items => .array (toItems items)
  | object fields => .ofFields (toFields fields)

/-- The values of a list of syntax trees. -/
def toItems : List Syntax → List Json
  | [] => []
  | item :: items => item.toJson :: toItems items

/-- The named values of a list of named syntax trees. -/
def toFields : List (Option String × Syntax) → List (String × Json)
  | [] => []
  | field :: fields => (field.1.getD "", field.2.toJson) :: toFields fields

end

mutual

/-- The syntax tree that writes a value. -/
def ofJson : Json → Syntax
  | .null => null
  | .bool value => bool value
  | .number value => number (some value)
  | .string value => string (some value)
  | .array items => array (ofItems items)
  | .object fields => object (ofFields fields)

/-- The syntax trees that write the values of a list. -/
def ofItems : List Json → List Syntax
  | [] => []
  | item :: items => ofJson item :: ofItems items

/-- The named syntax trees that write named values. -/
def ofFields : List (String × Json) → List (Option String × Syntax)
  | [] => []
  | field :: fields => (some field.1, ofJson field.2) :: ofFields fields

end

mutual

/-- No leaf is absent, and lists and objects are nested at most `depth` levels. -/
def isComplete : Nat → Syntax → Bool
  | _, null | _, bool _ => true
  | _, number value => value.isSome
  | _, string value => value.isSome
  | 0, array _ | 0, object _ => false
  | depth + 1, array items => areComplete depth items
  | depth + 1, object fields => areCompleteFields depth fields

/-- Every member of a list is complete. -/
def areComplete : Nat → List Syntax → Bool
  | _, [] => true
  | depth, item :: items => item.isComplete depth && areComplete depth items

/-- Every named part is complete. -/
def areCompleteFields : Nat → List (Option String × Syntax) → Bool
  | _, [] => true
  | depth, field :: fields =>
      field.1.isSome && field.2.isComplete depth && areCompleteFields depth fields

end

/-- A text. -/
def text? : Syntax → Option String
  | string value => value
  | _ => none

/-- A truth value. -/
def flag? : Syntax → Option Bool
  | bool value => some value
  | _ => none

/-- An integer. -/
def integer? : Syntax → Option Int
  | number (some (.integer value)) => some value
  | _ => none

/-- A natural number of 64 bits. -/
def natural? (tree : Syntax) : Option Nat :=
  tree.integer?.bind fun value =>
    if 0 ≤ value && value < Text.naturalBound then some value.toNat else none

/-- The items of a list. -/
def items? : Syntax → Option (List Syntax)
  | array items => some items
  | _ => none

/-- The fields of an object, if every name is a text. -/
def fields? : Syntax → Option (List (String × Syntax))
  | object fields =>
      fields.mapM fun field => field.1.map fun name => (name, field.2)
  | _ => none

/-- An object with the given fields in the given order. -/
def ofPairs (fields : List (String × Syntax)) : Syntax :=
  object (fields.map fun field => (some field.1, field.2))

/-- A text. -/
def ofText (text : String) : Syntax :=
  string (some text)

/-- A text or null. -/
def ofOptionalText (text : Option String) : Syntax :=
  (text.map ofText).getD null

/-- An integer. -/
def ofInt (value : Int) : Syntax :=
  number (some (.integer value))

end Syntax

end RequestFlow.Json
