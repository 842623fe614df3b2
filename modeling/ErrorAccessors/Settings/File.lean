/-
# Finding the settings of a project

The settings file of a project is the nearest one at or above the place where
work starts, unless one is given.  Relative paths in it are read from the
directory it stands in; without a settings file, from the starting place.
-/

import ErrorAccessors.Files
import ErrorAccessors.Path
import ErrorAccessors.Settings.Decode

namespace ErrorAccessors

/-- The name of settings files. -/
def settingsFileName : String := "resultgen.toml"

/-- Settings with the directory that their paths are relative to. -/
structure ProjectSettings where
  settings : Settings
  base : String
deriving DecidableEq, Repr, Inhabited

namespace Settings

variable {m : Type → Type} [Monad m] [Files m]

/-- The settings that a file holds. -/
def load (path : String) : m (Except SettingsError Settings) := do
  match ← Files.read path with
  | .error _ => return .error (.unreadable path)
  | .ok text =>
    match parse text with
    | .error (.badText _ problem) => return .error (.badText (some path) problem)
    | result => return result

/-- The settings file in the first of some directories that has one. -/
def firstIn? : List String → m (Option String)
  | [] => return none
  | directory :: rest => do
    let candidate := Path.join directory settingsFileName
    if ← Files.isFile candidate then return some candidate
    else firstIn? rest

/-- The nearest settings file at or above a place. -/
def discover? (start : String) : m (Option String) := do
  if ← Files.isFile start then
    match Path.parent? start with
    | none => return none
    | some directory => firstIn? (Path.ancestors directory)
  else firstIn? (Path.ancestors start)

/-- The settings of a file and the directory it stands in. -/
def loadProject (path : String) : m (Except SettingsError ProjectSettings) := do
  let base := (Path.parent? path).getD "."
  return (← load path).map fun settings => ⟨settings, base⟩

/-- The settings of the given file, or of the one that is found, or else the
defaults. -/
def resolve (given : Option String) (start : String) :
    m (Except SettingsError ProjectSettings) := do
  match given with
  | some path => loadProject path
  | none =>
    match ← discover? start with
    | some path => loadProject path
    | none =>
      let base := if ← Files.isFile start then (Path.parent? start).getD "" else start
      return .ok ⟨{}, base⟩

end Settings

end ErrorAccessors
