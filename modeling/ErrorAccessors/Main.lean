/-
# The program

The command line program runs commands on the files of the machine.  It only
passes on what the commands print and how they end.
-/

import ErrorAccessors.CommandLine.Run

namespace ErrorAccessors.Program

/-- The reason behind a failure of the system. -/
def reasonOf : IO.Error → FileError
  | .noFileOrDirectory .. => .notFound
  | .alreadyExists .. => .alreadyExists
  | .inappropriateType _ code _ => if code = 20 then .notDirectory else .isDirectory
  | error => .other (toString error)

/-- The result of an action or the reason why it failed. -/
def attempt {α : Type} (action : IO α) : IO (Except FileError α) := do
  match ← action.toBaseIO with
  | .ok value => return .ok value
  | .error error => return .error (reasonOf error)

/-- The text of a file. -/
def readText (path : String) : IO (Except FileError String) := do
  match ← attempt (IO.FS.readBinFile path) with
  | .error reason => return .error reason
  | .ok bytes =>
    match String.fromUTF8? bytes with
    | some text => return .ok text
    | none => return .error .notText

/-- Whether a path leads to something of a type. -/
def leadsTo (type : IO.FS.FileType) (path : String) : IO Bool := do
  match ← attempt (do return (← (← IO.FS.realPath path).metadata).type == type) with
  | .ok found => return found
  | .error _ => return false

instance : Files IO where
  isFile := leadsTo .file
  isDirectory := leadsTo .dir
  read := readText
  write path text := attempt (IO.FS.writeFile path text)
  list path := attempt do
    return (← (← IO.FS.realPath path).readDir).toList.map (·.fileName)
  createDirectories path := attempt (IO.FS.createDirAll path)
  remove path := attempt (IO.FS.removeFile path)
  location? path := do
    return (← attempt (IO.FS.realPath path)).toOption.map toString

/-- Run a command and print what it prints. -/
def execute (invocation : Invocation) : IO UInt32 := do
  let session : Session IO ExitStatus := invocation.run
  let (outcome, console) ← session.run.run {}
  IO.print console.stdout
  IO.eprint console.stderr
  match outcome with
  | .ok .success => return 0
  | .ok .failure => return 1
  | .error error =>
    IO.eprintln error.rendered
    return 1

/-- The sources that a command works on, none if they cannot be read. -/
def sources (paths : List String) (config outDir : Option String) :
    IO (List (String × String)) := do
  let session : Session IO Workspace := Workspace.load paths config outDir
  match ← session.run.run {} with
  | (.ok workspace, _) => return workspace.sources
  | (.error _, _) => return []

/-- Run a command whenever the sources have changed. -/
partial def watch (invocation : Invocation) (read : IO (List (String × String)))
    (seen : Option (List (String × String))) : IO UInt32 := do
  let found ← read
  unless seen = some found do
    let _ ← execute invocation
  IO.sleep 500
  watch invocation read (some found)

/-- Run the program. -/
def run (arguments : List String) : IO UInt32 := do
  match Invocation.ofArguments arguments with
  | .error problem =>
    match problem with
    | .helpRequested | .versionRequested =>
      IO.println problem.message
      return 0
    | _ =>
      IO.eprintln problem.message
      return 2
  | .ok invocation =>
    match invocation.command with
    | .generate paths outDir _ true =>
      IO.println "Watching for changes... (Ctrl+C to stop)"
      watch invocation (sources paths invocation.config outDir) none
    | _ => execute invocation

end ErrorAccessors.Program

/-- The program with the arguments of the command line. -/
def main (arguments : List String) : IO UInt32 :=
  ErrorAccessors.Program.run arguments
