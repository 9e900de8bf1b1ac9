import RequestFlow.Document.Reading
import RequestFlow.Json.Reading

/-!
# Documents as data texts

A document is written as one object.  A record is an object or the list of its
fields' values, of which the last ones may be missing.  A name may be written as
an object whose only field has this name and is null.
-/

namespace RequestFlow.Document.Json

open RequestFlow.Json

/-- One of several names. -/
def choice? : Syntax → Option String
  | .string value => value
  | .object [(name, .null)] => name
  | _ => none

/-- A part that may be absent. -/
def optional? : Syntax → Option (Option Syntax)
  | .null => some none
  | other => some (some other)

/-- The fields of a record. -/
def record? (names : List String) : Syntax → Option (List (String × Syntax))
  | .array items =>
      if items.length ≤ names.length then some (names.zip items) else none
  | other => other.fields?

/-- The format. -/
def format : Format Syntax :=
  { text? := Syntax.text?
    flag? := Syntax.flag?
    natural? := Syntax.natural?
    choice? := choice?
    optional? := optional?
    items? := Syntax.items?
    entries? := Syntax.fields?
    record? := record? }

/-- Reads a document. -/
def read? (text : List Char) : Option Document :=
  match Syntax.read .lenient text with
  | .error _ => none
  | .ok root => Reader.document format root

end RequestFlow.Document.Json
