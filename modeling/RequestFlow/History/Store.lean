import RequestFlow.Disk
import RequestFlow.History.File
import RequestFlow.Text.Utf8

/-!
# The history on disk

A store holds the log of a file.  A file that is not there, or that is not
understood, gives an empty log.  When a run is kept, the log changes first, and
then the whole file is written, for which its folder is made if need be; so the
log has the run even where the file cannot be written.
-/

namespace RequestFlow.History

/-- The log of a file. -/
structure Store where
  path : String
  log : Log
  /-- The number of records that are kept. -/
  limit : Nat

namespace Store

/-- The log that the content of a file holds; the content must be a text. -/
def logOf? (content : List UInt8) : Option Log :=
  (Text.Utf8.decode? content).map fun text => (Log.read? text.toList).getD .empty

/-- Opens the history of a file; yields nothing where there is something that
cannot be read. -/
def load? (disk : Disk) (path : String) (limit : Nat) : Option Store :=
  match disk.read path with
  | .ok content => (logOf? content).map fun log => ⟨path, log, limit⟩
  | .error .missing => some ⟨path, .empty, limit⟩
  | .error _ => none

/-- Writes the file. -/
def save (store : Store) (disk : Disk) : Except Disk.Broken Disk :=
  disk.create store.path (Text.Utf8.encode store.log.text)

/-- What has come of keeping a run. -/
structure Appended where
  store : Store
  disk : Disk
  /-- Why the file was not written. -/
  fault : Option DiskFault

/-- Keeps a run. -/
def append (store : Store) (disk : Disk) (entry : Entry) (now : Int) : Appended :=
  let store := { store with log := store.log.push store.limit entry now }
  match store.save disk with
  | .ok after => ⟨store, after, none⟩
  | .error broken => ⟨store, broken.disk, some broken.fault⟩

/-- The newest records, at most so many. -/
def recent (store : Store) (count : Nat) : List Record :=
  store.log.recent count

end Store

/-- The name of the history's file. -/
def fileName : String := "history.json"

/-- The variable of the process that tells the path of the history's file. -/
def pathVariable : String := "WEFT_HISTORY_PATH"

/-- The path of the history's file. -/
def usualPath (bindings : List (String × String)) : String :=
  let folders := Path.Folders.ofVariables bindings
  match (bindings.lookup pathVariable).filter fun path =>
      !Text.isAllBlank path with
  | some path => folders.expand path
  | none => folders.configurationFile fileName

end RequestFlow.History
