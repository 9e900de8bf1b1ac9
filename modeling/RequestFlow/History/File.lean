import RequestFlow.History.Log
import RequestFlow.Json.Printer
import RequestFlow.Json.Reading

/-!
# The file of the history

The log is kept in a file as data: an object whose entries are the records, the
newest one first.  On reading, unknown fields are passed over; a file that is not
understood as a whole yields nothing.
-/

namespace RequestFlow.History

open RequestFlow.Json

/-- The written form of a record. -/
def Record.tree (record : Record) : Syntax :=
  let entry := record.entry
  .ofPairs
    [("name", .ofText entry.name),
      ("status_summary", .ofText entry.summary),
      ("duration_ms", .ofInt entry.duration),
      ("definition_text", .ofText entry.definition),
      ("tags", .array (entry.tags.map .ofText)),
      ("description", .ofOptionalText entry.description),
      ("recorded_at", .ofInt record.recordedAt)]

/-- The written form of records. -/
def treeOfRecords (records : List Record) : Syntax :=
  .array (records.map Record.tree)

/-- The text of a log's file. -/
def Log.text (log : Log) : String :=
  (Syntax.ofPairs [("entries", treeOfRecords log.records)]).pretty

/-- The earliest moment that can be read. -/
def earliest : Int := -8334601228800

/-- The latest moment that can be read. -/
def latest : Int := 8210266876799

/-- The names of a record's fields. -/
def recordFields : List String :=
  ["name", "status_summary", "duration_ms", "definition_text", "tags",
    "description", "recorded_at"]

/-- How deep the value of an unknown field may be nested. -/
def unknownDepth : Nat := 125

/-- Reads a moment. -/
def moment? (tree : Syntax) : Option Int :=
  tree.integer?.filter fun value => earliest ≤ value && value ≤ latest

/-- Reads a text or null. -/
def optionalText? : Syntax → Option (Option String)
  | .null => some none
  | other => other.text?.map some

/-- Reads a field that may be missing. -/
def fieldOr {Part : Type} (fields : List (String × Syntax)) (name : String)
    (missing : Part) (read : Syntax → Option Part) : Option Part :=
  match fields.lookup name with
  | none => some missing
  | some tree => read tree

/-- No known field is repeated, and the values of unknown ones are well formed. -/
def areFieldsSound (fields : List (String × Syntax)) : Bool :=
  ((fields.map Prod.fst).filter recordFields.contains).Nodup &&
    fields.all fun field =>
      recordFields.contains field.1 || field.2.isComplete unknownDepth

/-- Reads a record, which is an object. -/
def Record.read? (tree : Syntax) : Option Record := do
  let fields ← tree.fields?
  if !areFieldsSound fields then none
  else
    some
      { entry :=
          { name := ← (← fields.lookup "name").text?
            summary := ← (← fields.lookup "status_summary").text?
            duration := ← (← fields.lookup "duration_ms").natural?
            definition := ← (← fields.lookup "definition_text").text?
            tags := ← fieldOr fields "tags" [] fun tree =>
              tree.items?.bind fun items => items.mapM Syntax.text?
            description := ← fieldOr fields "description" none optionalText? }
        recordedAt := ← moment? (← fields.lookup "recorded_at") }

/-- The entries of a file: the field of an object, or the only item of a list. -/
def entriesOf? : Syntax → Option Syntax
  | .array [entries] => some entries
  | .array _ => none
  | other =>
      other.fields?.bind fun fields =>
        match fields.filter fun field => field.1 = "entries" with
        | [(_, entries)] => some entries
        | _ => none

/-- Reads the text of a log's file. -/
def Log.read? (text : List Char) : Option Log :=
  match Syntax.read .lenient text with
  | .error _ => none
  | .ok root =>
      (((entriesOf? root).bind Syntax.items?).bind fun items =>
        items.mapM Record.read?).map Log.mk

end RequestFlow.History
