/-!
# Formats of documents

A document can be written in several formats.  A format says what a node of the
written text stands for where a part of a document is looked for.  A record is a
node with named fields: unknown ones are passed over, and a known one must not be
repeated.
-/

namespace RequestFlow.Document

/-- What the nodes of a written document stand for; each reading yields nothing
where a node does not stand for what is looked for. -/
structure Format (Node : Type) where
  text? : Node → Option String
  flag? : Node → Option Bool
  /-- A natural number of 64 bits. -/
  natural? : Node → Option Nat
  choice? : Node → Option String
  /-- A part that may be absent. -/
  optional? : Node → Option (Option Node)
  items? : Node → Option (List Node)
  entries? : Node → Option (List (String × Node))
  /-- The named fields of a record that has fields of the given names. -/
  record? : List String → Node → Option (List (String × Node))

/-- Reads a part of a document. -/
abbrev Reader (Node Part : Type) := Format Node → Node → Option Part

namespace Reader

/-- A text. -/
def text {Node : Type} : Reader Node String := Format.text?

/-- A truth value. -/
def flag {Node : Type} : Reader Node Bool := Format.flag?

/-- A natural number. -/
def natural {Node : Type} : Reader Node Nat := Format.natural?

/-- A name that stands for a part. -/
def named {Node Part : Type} (part? : String → Option Part) : Reader Node Part :=
  fun format node => (format.choice? node).bind part?

/-- A part that may be absent. -/
def optional {Node Part : Type} (reader : Reader Node Part) :
    Reader Node (Option Part) :=
  fun format node =>
    match format.optional? node with
    | none => none
    | some none => some none
    | some (some present) => (reader format present).map some

/-- A list of parts. -/
def list {Node Part : Type} (reader : Reader Node Part) :
    Reader Node (List Part) :=
  fun format node =>
    (format.items? node).bind fun items => items.mapM (reader format)

end Reader

/-- The fields of a record. -/
structure Fields (Node : Type) where
  format : Format Node
  /-- The fields as written. -/
  entries : List (String × Node)

/-- The fields of a record that has fields of the given names. -/
def Format.fields? {Node : Type} (format : Format Node) (names : List String)
    (node : Node) : Option (Fields Node) :=
  (format.record? names node).bind fun entries =>
    let known := (entries.map Prod.fst).filter names.contains
    if known.Nodup then some ⟨format, entries⟩ else none

namespace Fields

/-- A field that must be there. -/
def required? {Node Part : Type} (fields : Fields Node) (name : String)
    (reader : Reader Node Part) : Option Part :=
  (fields.entries.lookup name).bind (reader fields.format)

/-- A field that has a value also where it is not written. -/
def given? {Node Part : Type} (fields : Fields Node) (name : String)
    (fallback : Part) (reader : Reader Node Part) : Option Part :=
  match fields.entries.lookup name with
  | none => some fallback
  | some node => reader fields.format node

/-- A field that may be absent. -/
def optional? {Node Part : Type} (fields : Fields Node) (name : String)
    (reader : Reader Node Part) : Option (Option Part) :=
  fields.given? name none reader.optional

end Fields

end RequestFlow.Document
