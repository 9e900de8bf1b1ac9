import RequestFlow.Text.Blank
import RequestFlow.Text.Caseless
import RequestFlow.Text.Search

/-!
# Paths

The parts of a path are separated by slashes; empty parts and single points say
nothing.  A path that begins with a slash is absolute and replaces what it is
appended to.  The home folder is written as a tilde in front.
-/

namespace RequestFlow.Path

/-- The path is absolute. -/
def isAbsolute (path : String) : Bool :=
  path.toList.head? == some '/'

/-- The pieces of a path between slashes. -/
def pieces (path : String) : List String :=
  (Text.splitAt (fun character => character == '/') path.toList).map String.ofList

/-- The piece of a path says something. -/
def isPart (piece : String) : Bool :=
  piece ≠ "" && piece ≠ "."

/-- The parts of a path. -/
def parts (path : String) : List String :=
  (pieces path).filter isPart

/-- The name of the file at the end of a path. -/
def fileName? (path : String) : Option String :=
  (parts path).getLast?.filter fun name => name ≠ ".."

/-- What stands behind the last point of a name; a point in front does not
count. -/
def extensionOf? (name : String) : Option String :=
  let reversed := name.toList.reverse
  let ending := reversed.takeWhile fun character => character != '.'
  match reversed.drop ending.length with
  | [] => none
  | [_] => none
  | _ => some (String.ofList ending.reverse)

/-- The extension of a path in lower-case letters. -/
def extension? (path : String) : Option String :=
  ((fileName? path).bind extensionOf?).map Text.lower

/-- A path behind another one. -/
def join (base path : String) : String :=
  if isAbsolute path || base.isEmpty then path
  else if base.toList.getLast? = some '/' then base ++ path
  else base ++ "/" ++ path

/-- The folder of a path. -/
def parent (path : String) : String :=
  (if isAbsolute path then "/" else "") ++ "/".intercalate (parts path).dropLast

/-- Where the user's folders are. -/
structure Folders where
  home : Option String
  configuration : Option String

namespace Folders

/-- The folders that the variables of the process tell. -/
def ofVariables (bindings : List (String × String)) : Folders :=
  let home := (bindings.lookup "HOME").filter fun path => !path.isEmpty
  { home := home
    configuration :=
      ((bindings.lookup "XDG_CONFIG_HOME").filter isAbsolute).or
        (home.map fun home => join home ".config") }

/-- A path with the home folder in place of a tilde in front; blanks at the ends
do not count. -/
def expand (folders : Folders) (path : String) : String :=
  let path := Text.trimmed path
  let home := folders.home.getD "~"
  if path = "~" then home
  else
    match (Text.dropStart? "~/".toList path.toList).or
        (Text.dropStart? "~\\".toList path.toList) with
    | some rest => join home (String.ofList rest)
    | none => path

/-- The name of the folder of the program's own configuration. -/
def ownFolder : String := "weft"

/-- A file in the program's own folder of configuration. -/
def configurationFile (folders : Folders) (name : String) : String :=
  join (join (folders.configuration.getD ".") ownFolder) name

end Folders

end RequestFlow.Path
