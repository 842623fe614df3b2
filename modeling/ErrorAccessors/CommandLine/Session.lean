/-
# Sessions

A session runs a command.  It has access to files, it prints, and it may be
ended by an error.  What was printed before an error remains printed.
-/

import ErrorAccessors.Diagnostic
import ErrorAccessors.Files
import ErrorAccessors.Repair
import ErrorAccessors.Settings.Decode
import ErrorAccessors.SourceDirectory

namespace ErrorAccessors

/-- How a command ended. -/
inductive ExitStatus where
  | success
  /-- The command ran and found errors. -/
  | failure
deriving DecidableEq, Repr, Inhabited

/-- Failure if something holds. -/
def ExitStatus.failureIf (found : Bool) : ExitStatus :=
  if found then .failure else .success

/-- Why a command could not be run to its end. -/
inductive CommandError where
  | settings (error : SettingsError)
  | output (error : WriteError)
  | repair (error : RepairError)
  | missing (path : String)
  | unreadable (path : String) (reason : FileError)
  | unwritable (path : String) (reason : FileError)
  | unlisted (reason : FileError)
deriving DecidableEq, Repr, Inhabited

namespace CommandError

/-- What is said about an error. -/
def message : CommandError → String
  | settings error => error.message
  | output error => error.message
  | repair error => error.message
  | missing path => "No such file or directory: " ++ path
  | unreadable path reason => "Failed to read " ++ path ++ ": " ++ reason.message
  | unwritable path reason => "Failed to write " ++ path ++ ": " ++ reason.message
  | unlisted reason => reason.message

/-- The line that reports an error. -/
def rendered (error : CommandError) : String :=
  "Error: " ++ error.message

end CommandError

/-- What has been printed. -/
structure Console where
  stdout : String := ""
  stderr : String := ""
deriving DecidableEq, Repr, Inhabited

/-- A computation that prints and may end with an error. -/
abbrev Session (m : Type → Type) := ExceptT CommandError (StateT Console m)

namespace Session

variable {m : Type → Type} [Monad m]

/-- Print a line. -/
def printLine (line : String) : Session m Unit :=
  modify fun console => { console with stdout := console.stdout ++ line ++ "\n" }

/-- Print a line to the error output. -/
def printError (line : String) : Session m Unit :=
  modify fun console => { console with stderr := console.stderr ++ line ++ "\n" }

/-- Print lines. -/
def printLines : List String → Session m Unit
  | [] => return
  | line :: rest => do
    printLine line
    printLines rest

/-- Print lines to the error output. -/
def printErrors : List String → Session m Unit
  | [] => return
  | line :: rest => do
    printError line
    printErrors rest

/-- Go on with a result, or end with the error that a cause makes. -/
def orEnd {ε α : Type} (cause : ε → CommandError) : Except ε α → Session m α
  | .ok value => pure value
  | .error error => throw (cause error)

end Session

end ErrorAccessors
