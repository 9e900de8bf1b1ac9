import RequestFlow.Command.Program
import Std.Time.DateTime.Timestamp

/-!
# The command line

The outer layer of the program: it finds out what is around it, loads the files
that the invocation needs, answers, and writes the history where it has changed.
-/

namespace RequestFlow.Main

open Command

/-- The variables of the process, from the text in which they are listed. -/
def variablesOf (listing : List UInt8) : List (String × String) :=
  (Text.splitAt (fun character => character.toNat == 0)
    (Text.Utf8.decodeLossy listing).toList).filterMap
    fun entry =>
      (Text.cut ['='] entry).map fun parts =>
        (String.ofList parts.1, String.ofList parts.2)

/-- The place where the variables of the process are listed. -/
def variablesListing : String := "/proc/self/environ"

/-- The content of a file, if it can be read. -/
def content? (path : String) : IO (Option (List UInt8)) :=
  try
    let content ← IO.FS.readBinFile path
    return some content.toList
  catch _ => return none

/-- There is a folder at a path. -/
def isFolder (path : String) : IO Bool := do
  let folder ← IO.currentDir
  (folder / path).isDir

/-- The disk with what is found at a path, or else at the nearest folder above
it. -/
partial def load (disk : Disk) (path : String) : IO Disk := do
  match ← content? path with
  | some content => return Disk.left (disk.create path content)
  | none =>
      if ← isFolder path then return Disk.left (disk.makeFolders path)
      else
        let parent := Path.parent path
        if parent.isEmpty || parent = path then return disk else load disk parent

/-- Finds out what is around the program. -/
def surroundings : IO Surroundings := do
  let folder ← IO.currentDir
  let listing ← content? variablesListing
  let time ← Std.Time.Timestamp.now
  return ⟨.bare folder.toString, variablesOf (listing.getD []),
    time.toMillisecondsSinceUnixEpoch.val⟩

/-- Writes a file and makes its folder. -/
def write (path : String) (content : List UInt8) : IO Unit := do
  let parent := Path.parent path
  if !parent.isEmpty then IO.FS.createDirAll parent
  IO.FS.writeBinFile path (ByteArray.mk content.toArray)

/-- Writes the history where a response has changed it. -/
def writeHistory (before : Surroundings) (after : Disk) : IO Unit := do
  let path := History.usualPath before.bindings
  match (after.read path).toOption with
  | none => return
  | some content =>
      if (before.disk.read path).toOption ≠ some content then
        try write path content catch _ => return

/-- Answers the arguments of the command line. -/
def run (arguments : List String) : IO UInt32 := do
  let bare ← surroundings
  let files := match Invocation.read arguments with
    | .ok invocation => invocation.files bare.bindings
    | .error _ => []
  let disk ← files.foldlM load bare.disk
  let found := { bare with disk := disk }
  let response := answer found arguments
  IO.print response.output
  IO.eprint response.complaints
  writeHistory found response.disk
  return response.code.toUInt32

end RequestFlow.Main

/-- The program. -/
def main (arguments : List String) : IO UInt32 :=
  RequestFlow.Main.run arguments
