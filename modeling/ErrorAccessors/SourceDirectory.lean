/-
# Writing sources to a directory

A source directory is where the sources of a run are written.  It remembers
the names written through it and how many files that really changed: a file
that holds its text already is left alone.  Pruning removes the sources of
earlier runs, which are the files with the shared beginning whose names were
not written.
-/

import ErrorAccessors.Files
import ErrorAccessors.Path

namespace ErrorAccessors

/-- The ending of source files. -/
def sourceExtension : String := "cs"

/-- A directory that sources are written to. -/
structure SourceDirectory where
  root : String
  /-- The names written so far. -/
  written : List String := []
  /-- The number of files made or changed. -/
  changed : Nat := 0
deriving DecidableEq, Repr, Inhabited

/-- A source could not be written, or an old one could not be removed. -/
structure WriteError where
  path : String
deriving DecidableEq, Repr, Inhabited

/-- What is said about a failed write. -/
def WriteError.message (error : WriteError) : String :=
  "could not write " ++ error.path

namespace SourceDirectory

variable {m : Type → Type} [Monad m] [Files m]

/-- Begin to write to a directory, which is made if it is missing. -/
def create (root : String) : m (Except WriteError SourceDirectory) := do
  match ← Files.createDirectories root with
  | .ok () => return .ok { root }
  | .error _ => return .error ⟨root⟩

/-- The path of the source with a name. -/
def pathFor (directory : SourceDirectory) (name : String) : String :=
  Path.join directory.root (name ++ "." ++ sourceExtension)

/-- Write a source.  Its name counts as written even if writing fails, which
the second part of the answer reports. -/
def add (directory : SourceDirectory) (name text : String) :
    m (SourceDirectory × Except WriteError Unit) := do
  let path := directory.pathFor name
  let noted := { directory with written := directory.written ++ [name] }
  match ← Files.read path with
  | .ok held =>
    if held = text then return (noted, .ok ())
    else replace noted path
  | .error _ => replace noted path
where
  /-- Write the text without regard to what the file holds. -/
  replace (noted : SourceDirectory) (path : String) :
      m (SourceDirectory × Except WriteError Unit) := do
    match ← Files.write path text with
    | .ok () => return ({ noted with changed := noted.changed + 1 }, .ok ())
    | .error _ => return (noted, .error ⟨path⟩)

/-- Write sources in turn, up to the first that cannot be written. -/
def addAll (directory : SourceDirectory) :
    List (String × String) → m (SourceDirectory × Except WriteError Unit)
  | [] => return (directory, .ok ())
  | (name, text) :: rest => do
    match ← directory.add name text with
    | (later, .ok ()) => later.addAll rest
    | failed => return failed

/-- Whether the file with a name is an old source of this program. -/
def isStale (directory : SourceDirectory) (beginning fileName : String) : Bool :=
  let (stem, extension) := Path.splitExtension fileName
  extension == some sourceExtension && (beginning ++ "_").isPrefixOf stem &&
    !directory.written.contains stem

/-- Remove files in turn, up to the first that cannot be removed. -/
def removeAll : List String → m (Except WriteError Unit)
  | [] => return .ok ()
  | path :: rest => do
    match ← Files.remove path with
    | .ok () => removeAll rest
    | .error _ => return .error ⟨path⟩

/-- Remove the sources of earlier runs and answer with their paths. -/
def prune (directory : SourceDirectory) (beginning : String) :
    m (Except WriteError (List String)) := do
  match ← Files.list directory.root with
  | .error _ => return .error ⟨directory.root⟩
  | .ok names =>
    let stale := names.filter (directory.isStale beginning)
    let paths := Path.sort (stale.map (Path.join directory.root))
    return (← removeAll paths).map fun () => paths

end SourceDirectory

end ErrorAccessors
