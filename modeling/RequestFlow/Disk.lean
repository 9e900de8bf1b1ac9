import RequestFlow.Dictionary
import RequestFlow.Path

/-!
# Disks

A disk is a tree of folders and files.  Paths that are not absolute begin at the
folder in which the program works.  A file is made together with the folders in
which it is; where that fails, the folders that were made before the fault stay.
-/

namespace RequestFlow

/-- What a place of a disk holds. -/
inductive DiskNode where
  | folder
  | file (content : List UInt8)
  deriving DecidableEq

/-- Why a file cannot be read or written. -/
inductive DiskFault where
  | missing
  /-- A part of the path in front of the last one is no folder. -/
  | notFolder
  | isFolder
  deriving DecidableEq

/-- A disk. -/
structure Disk where
  /-- What each place holds, by the place's text. -/
  nodes : Dictionary DiskNode
  /-- The parts of the place of the folder in which the program works. -/
  folder : List String

namespace Disk

/-- A change of a disk that was broken off. -/
structure Broken where
  fault : DiskFault
  /-- The disk as it was left. -/
  disk : Disk

/-- The disk that a change leaves, whether it was carried out or broken off. -/
def left : Except Broken Disk → Disk
  | .ok disk => disk
  | .error broken => broken.disk

/-- The text of a place. -/
def placeText (place : List String) : String :=
  "/".intercalate place

/-- What a place holds. -/
def node? (disk : Disk) (place : List String) : Option DiskNode :=
  if place.isEmpty then some .folder else disk.nodes.get? (placeText place)

/-- Puts something at a place. -/
def put (disk : Disk) (place : List String) (node : DiskNode) : Disk :=
  { disk with nodes := disk.nodes.insert (placeText place) node }

/-- The place of a folder, if it is one. -/
def enter (disk : Disk) (place : List String) : Except DiskFault (List String) :=
  match disk.node? place with
  | some .folder => .ok place
  | some (.file _) => .error .notFolder
  | none => .error .missing

/-- Follows the pieces of a path from a place on. -/
def follow (disk : Disk) (place : List String) :
    List String → Except DiskFault (List String)
  | [] => .ok place
  | piece :: pieces =>
      match disk.enter place with
      | .error fault => .error fault
      | .ok place =>
          if piece = ".." then disk.follow place.dropLast pieces
          else if Path.isPart piece then disk.follow (place ++ [piece]) pieces
          else disk.follow place pieces

/-- The place where a path begins. -/
def origin (disk : Disk) (path : String) : List String :=
  if Path.isAbsolute path then [] else disk.folder

/-- The place of a path; all in front of its last part must be there. -/
def locate (disk : Disk) (path : String) : Except DiskFault (List String) :=
  if path.isEmpty then .error .missing
  else disk.follow (disk.origin path) (Path.pieces path)

/-- The content of a file. -/
def read (disk : Disk) (path : String) : Except DiskFault (List UInt8) :=
  match disk.locate path with
  | .error fault => .error fault
  | .ok place =>
      match disk.node? place with
      | some (.file content) => .ok content
      | some .folder => .error .isFolder
      | none => .error .missing

/-- Writes a file into a folder that is there. -/
def write (disk : Disk) (path : String) (content : List UInt8) :
    Except DiskFault Disk :=
  match disk.locate path with
  | .error fault => .error fault
  | .ok place =>
      match disk.node? place with
      | some .folder => .error .isFolder
      | _ => .ok (disk.put place (.file content))

/-- Makes the folders of parts of a path from a place on, one in the other. -/
def makeFrom (disk : Disk) (place : List String) : List String → Except Broken Disk
  | [] => .ok disk
  | part :: parts =>
      match disk.enter place with
      | .error fault => .error ⟨fault, disk⟩
      | .ok place =>
          let place := if part = ".." then place.dropLast else place ++ [part]
          match disk.node? place with
          | some (.file _) => .error ⟨.notFolder, disk⟩
          | some .folder => disk.makeFrom place parts
          | none => (disk.put place .folder).makeFrom place parts

/-- Makes the folders of a path, as far as they are not there. -/
def makeFolders (disk : Disk) (path : String) : Except Broken Disk :=
  disk.makeFrom (disk.origin path) (Path.parts path)

/-- Makes a file and the folders in which it is. -/
def create (disk : Disk) (path : String) (content : List UInt8) :
    Except Broken Disk :=
  match disk.makeFolders (Path.parent path) with
  | .error broken => .error broken
  | .ok made =>
      match made.write path content with
      | .error fault => .error ⟨fault, made⟩
      | .ok after => .ok after

/-- A disk with nothing but the folder in which the program works. -/
def bare (folder : String) : Disk :=
  let place := Path.parts folder
  (place.foldl
    (fun (state : Disk × List String) part =>
      let place := state.2 ++ [part]
      (state.1.put place .folder, place))
    (⟨.empty, place⟩, [])).1

end Disk

end RequestFlow
