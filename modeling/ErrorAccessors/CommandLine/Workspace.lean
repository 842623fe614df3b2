/-
# Workspaces

A workspace holds what a command works on: the settings, the sources below the
given paths, and the place of the output.  The settings are those that apply to
the first path.  Directories are searched for sources, but hidden directories,
build output and the output directory of this program are left out.  The
sources are ordered by path, and a file given twice under equal paths counts
once.
-/

import ErrorAccessors.CommandLine.Session
import ErrorAccessors.Diagnostic.Order
import ErrorAccessors.Parser.Declaration
import ErrorAccessors.Settings.File

namespace ErrorAccessors

/-- Settings, sources and the place of the output. -/
structure Workspace where
  settings : Settings
  /-- Paths and texts, in increasing order of the paths. -/
  sources : List (String × String)
  outDir : String
deriving DecidableEq, Repr, Inhabited

namespace Workspace

variable {m : Type → Type} [Monad m] [Files m]

/-- Whether the name of a file is that of a source. -/
def isSource (path : String) : Bool :=
  Path.extension? path == some sourceExtension

/-- Whether directories of a name are left out. -/
def isLeftOut (name : String) : Bool :=
  name.toList.head? == some '.' || name == "bin" || name == "obj"

/-- Whether two paths lead to the same place. -/
def samePlace (first second : String) : Session m Bool := do
  let firstPlace ← Files.location? first
  let secondPlace ← Files.location? second
  return firstPlace.isSome && firstPlace == secondPlace

/-- The sources at a path, or below it in directories that nest less than
`depth` levels. -/
def sourcesWithin (outDir : String) : Nat → String → Session m (List String)
  | 0, _ => return []
  | depth + 1, path => do
    if ← Files.isFile path then return [path].filter isSource
    unless ← Files.isDirectory path do
      throw (.missing path)
    let names ← Session.orEnd .unlisted (← Files.list path)
    let found ← names.mapM fun name => do
      let entry := Path.join path name
      if ← Files.isFile entry then return [entry].filter isSource
      unless ← Files.isDirectory entry do
        return []
      if isLeftOut name || (← samePlace entry outDir) then return []
      sourcesWithin outDir depth entry
    return Path.sort found.flatten

/-- More levels than directories can nest: paths have less than 4096 bytes,
and every level adds two. -/
def deepest : Nat := 4096

/-- Put a source into a list that is ordered by path. -/
def insertSource (path text : String) : List (String × String) → List (String × String)
  | [] => [(path, text)]
  | (held, heldText) :: rest =>
    match Path.compare path held with
    | .lt => (path, text) :: (held, heldText) :: rest
    | .eq => (held, text) :: rest
    | .gt => (held, heldText) :: insertSource path text rest

/-- Read files in turn and add them to sources. -/
def readAll (sources : List (String × String)) : List String → Session m (List (String × String))
  | [] => return sources
  | path :: rest => do
    let text ← Session.orEnd (.unreadable path) (← Files.read path)
    readAll (insertSource path text sources) rest

/-- Find and read the sources of some paths in turn. -/
def gather (outDir : String) (sources : List (String × String)) :
    List String → Session m (List (String × String))
  | [] => return sources
  | path :: rest => do
    let found ← sourcesWithin outDir deepest path
    gather outDir (← readAll sources found) rest

/-- The workspace of some paths.  The settings file and the place of the output
may be given. -/
def load (paths : List String) (config outDir : Option String) : Session m Workspace := do
  let project ← Session.orEnd .settings (← Settings.resolve config (paths.headD "."))
  let outDir := outDir.getD (Path.join project.base project.settings.emission.outDir)
  return { settings := project.settings, sources := ← gather outDir [] paths, outDir }

/-- The outlines of all sources that have one, and what is wrong with the
others. -/
def outlines (workspace : Workspace) : List SourceUnit × List Diagnostic :=
  let parsed := workspace.sources.map fun (path, text) => SourceUnit.parse text path
  let faults := parsed.flatMap fun result =>
    match result with
    | .ok _ => []
    | .error diagnostics => diagnostics
  (parsed.filterMap Except.toOption, Diagnostic.sort faults)

/-- The text of the source at a path. -/
def textOf (workspace : Workspace) (path : String) : String :=
  ((workspace.sources.find? fun source => Path.compare source.1 path == .eq).map (·.2)).getD ""

/-- Print diagnostics, each as a line of JSON or else as a text with the source
it is about. -/
def report (workspace : Workspace) (json : Bool) : List Diagnostic → Session m Unit
  | [] => return
  | diagnostic :: rest => do
    if json then Session.printLine diagnostic.toJson.compact
    else Session.printError (diagnostic.render (workspace.textOf diagnostic.span.file))
    workspace.report json rest

end Workspace

end ErrorAccessors
