import RequestFlow.Json.Number

/-!
# Data values

A data value is null, a truth value, a number, a text, an array or an object.  The
fields of an object are kept in the order of their names, and writing a name again
replaces its value.  `sameAs` is the equality of data: integers and binary64
numbers are never the same, the two zeros are.
-/

namespace RequestFlow

/-- A data value. -/
inductive Json where
  | null
  | bool (value : Bool)
  | number (value : Json.Number)
  | string (value : String)
  | array (items : List Json)
  /-- Named values, in the order of their names. -/
  | object (fields : List (String × Json))

namespace Json

instance : Inhabited Json := ⟨null⟩

mutual

/-- Equality of values is decided part by part. -/
def decideEq : (left right : Json) → Decidable (left = right)
  | null, null => isTrue rfl
  | bool left, bool right =>
      if equal : left = right then isTrue (equal ▸ rfl)
      else isFalse (by simpa using equal)
  | number left, number right =>
      if equal : left = right then isTrue (equal ▸ rfl)
      else isFalse (by simpa using equal)
  | string left, string right =>
      if equal : left = right then isTrue (equal ▸ rfl)
      else isFalse (by simpa using equal)
  | array left, array right =>
      match decideItemsEq left right with
      | isTrue equal => isTrue (equal ▸ rfl)
      | isFalse different => isFalse (by simpa using different)
  | object left, object right =>
      match decideFieldsEq left right with
      | isTrue equal => isTrue (equal ▸ rfl)
      | isFalse different => isFalse (by simpa using different)
  | null, bool _ | null, number _ | null, string _ | null, array _ | null, object _
  | bool _, null | bool _, number _ | bool _, string _ | bool _, array _ | bool _,
    object _
  | number _, null | number _, bool _ | number _, string _ | number _, array _ |
    number _, object _
  | string _, null | string _, bool _ | string _, number _ | string _, array _ |
    string _, object _
  | array _, null | array _, bool _ | array _, number _ | array _, string _ | array
    _, object _
  | object _, null | object _, bool _ | object _, number _ | object _, string _
  | object _, array _ => isFalse (by simp)

/-- Equality of lists of values is decided part by part. -/
def decideItemsEq : (left right : List Json) → Decidable (left = right)
  | [], [] => isTrue rfl
  | [], _ :: _ | _ :: _, [] => isFalse (by simp)
  | left :: lefts, right :: rights =>
      match decideEq left right, decideItemsEq lefts rights with
      | isTrue head, isTrue tail => isTrue (head ▸ tail ▸ rfl)
      | isFalse head, _ => isFalse (by simp [head])
      | _, isFalse tail => isFalse (by simp [tail])

/-- Equality of lists of fields is decided part by part. -/
def decideFieldsEq : (left right : List (String × Json)) → Decidable (left = right)
  | [], [] => isTrue rfl
  | [], _ :: _ | _ :: _, [] => isFalse (by simp)
  | (leftName, left) :: lefts, (rightName, right) :: rights =>
      if name : leftName = rightName then
        match decideEq left right, decideFieldsEq lefts rights with
        | isTrue head, isTrue tail => isTrue (name ▸ head ▸ tail ▸ rfl)
        | isFalse head, _ => isFalse (by simp [head])
        | _, isFalse tail => isFalse (by simp [tail])
      else isFalse (by simp [name])

end

instance : DecidableEq Json := decideEq

/-- Writes a field at its place in the order of names. -/
def putField (name : String) (value : Json) :
    List (String × Json) → List (String × Json)
  | [] => [(name, value)]
  | field :: fields =>
      if name < field.1 then (name, value) :: field :: fields
      else if field.1 = name then (name, value) :: fields
      else field :: putField name value fields

/-- The object of a list of fields; the last value of a name wins. -/
def ofFields (fields : List (String × Json)) : Json :=
  object (fields.foldl (fun sorted field => putField field.1 field.2 sorted) [])

/-- The value of a field, if the value is an object that has it. -/
def field? : Json → String → Option Json
  | object fields, name => fields.lookup name
  | _, _ => none

/-- An element, if the value is an array that is long enough. -/
def item? : Json → Nat → Option Json
  | array items, index => items[index]?
  | _, _ => none

mutual

/-- Two values are the same data. -/
def sameAs : Json → Json → Bool
  | null, null => true
  | bool left, bool right => left == right
  | number left, number right => left.sameAs right
  | string left, string right => left == right
  | array left, array right => sameItems left right
  | object left, object right => sameFields left right
  | _, _ => false

/-- Two lists of values are the same data. -/
def sameItems : List Json → List Json → Bool
  | [], [] => true
  | left :: lefts, right :: rights => sameAs left right && sameItems lefts rights
  | _, _ => false

/-- Two lists of fields are the same data. -/
def sameFields : List (String × Json) → List (String × Json) → Bool
  | [], [] => true
  | left :: lefts, right :: rights =>
      left.1 == right.1 && sameAs left.2 right.2 && sameFields lefts rights
  | _, _ => false

end

end Json

end RequestFlow
