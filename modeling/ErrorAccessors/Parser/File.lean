/-
# Reading a source file

The outline of a file at a path.  A file that cannot be read gives a diagnostic
at its beginning, so that it is reported like any other fault of a source.
-/

import ErrorAccessors.Files
import ErrorAccessors.Parser.Declaration

namespace ErrorAccessors

/-- The diagnostic for a file that cannot be read. -/
def Diagnostic.unreadable (path : String) (reason : FileError) : Diagnostic :=
  .error .unreadableFile ("Could not read file: " ++ reason.message) (Span.atFileStart path)

/-- The outline of the file at a path. -/
def SourceUnit.load {m : Type → Type} [Monad m] [Files m] (path : String) :
    m (Except (List Diagnostic) SourceUnit) := do
  match ← Files.read path with
  | .ok text => return SourceUnit.parse text path
  | .error reason => return .error [.unreadable path reason]

end ErrorAccessors
