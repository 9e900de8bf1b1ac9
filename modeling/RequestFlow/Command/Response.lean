import RequestFlow.Document.File
import RequestFlow.Drive

/-!
# Responses

What a command finds around it, and what it leaves: a code, an output, complaints,
and the disk.  A command that fails says why in one complaint.
-/

namespace RequestFlow.Command

/-- What a command finds around it. -/
structure Surroundings where
  disk : Disk
  bindings : List (String × String)
  /-- The time, in milliseconds of Unix time. -/
  now : Int

/-- What a command leaves. -/
structure Response where
  /-- The code; zero stands for success. -/
  code : Nat
  output : String
  complaints : String
  disk : Disk

/-- The code of success. -/
def successCode : Nat := 0

/-- The code of failure. -/
def failureCode : Nat := 1

/-- The code of arguments that are not a command. -/
def misuseCode : Nat := 2

/-- The code of a run that was canceled. -/
def canceledCode : Nat := 130

/-- Why a command fails. -/
inductive Failure where
  | document (error : Document.FileError)
  /-- The document declares no workflow that could be run. -/
  | noWorkflow
  /-- What is to be run is not declared. -/
  | undeclared (error : StartError)
  /-- The file of variables cannot be read. -/
  | variablesUnread (path : String)
  /-- The file of variables holds no dictionary. -/
  | variablesUnparsed (path : String)
  | unreported (error : Drive.DriveError)
  | historyUnread
  deriving DecidableEq

/-- The wording of a failure. -/
def Failure.message : Failure → String
  | document error => error.message
  | noWorkflow => "document declares no workflows"
  | undeclared error => error.message
  | variablesUnread path => s!"Failed to read env file: {path}"
  | variablesUnparsed path => s!"Failed to parse env file: {path}"
  | unreported error => error.message
  | historyUnread => "failed to open history store"

/-- A text of lines. -/
def ofLines (lines : List String) : String :=
  String.join (lines.map fun line => line ++ "\n")

/-- The line of a failure. -/
def Failure.line (failure : Failure) : String :=
  s!"Error: {failure.message}"

namespace Response

/-- A response with an output and nothing else. -/
def plain (disk : Disk) (code : Nat) (lines : List String) : Response :=
  ⟨code, ofLines lines, "", disk⟩

/-- The response of a command that failed after some progress. -/
def failed (disk : Disk) (progress : List String) (failure : Failure) : Response :=
  ⟨failureCode, "", ofLines (progress ++ [failure.line]), disk⟩

end Response

end RequestFlow.Command
