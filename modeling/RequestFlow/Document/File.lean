import RequestFlow.Disk
import RequestFlow.Document.Text
import RequestFlow.Text.Utf8

/-!
# Files of documents

A file whose extension is that of JSON is read as JSON, and every other one as
YAML.  Bytes that are no characters are replaced before the text is read.  The
main statement says when reading a file fails for its place, and when for its
content.
-/

namespace RequestFlow.Document

/-- Why a file gives no document. -/
inductive FileError where
  | unread (path : String) (fault : DiskFault)
  | unparsed (path : String) (language : Language)
  deriving DecidableEq

/-- The wording of an error. -/
def FileError.message : FileError → String
  | unread path _ => s!"Failed to read document: {path}"
  | unparsed path _ => s!"Failed to parse document: {path}"

/-- The extension of JSON files. -/
def jsonExtension : String := "json"

/-- The language of a file. -/
def Language.ofPath (path : String) : Language :=
  if Path.extension? path = some jsonExtension then .json else .yaml

/-- The document of a file. -/
def load (disk : Disk) (path : String) : Except FileError Document :=
  match disk.read path with
  | .error fault => .error (.unread path fault)
  | .ok content =>
      match parse? (.ofPath path) (Text.Utf8.decodeLossy content) with
      | some document => .ok document
      | none => .error (.unparsed path (.ofPath path))

theorem load_eq_unread_iff {disk : Disk} {path : String} {fault : DiskFault} :
    load disk path = .error (.unread path fault) ↔
      disk.read path = .error fault := by
  rw [load]
  split
  · next found => simp [found]
  · next found => split <;> simp [found]

end RequestFlow.Document
