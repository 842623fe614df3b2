/-
# The order of diagnostics

Diagnostics of several files are reported by file, then by start offset, then
by code.  Files compare as paths, so that the order follows directories and
not the spelling of the separators.  The sort is stable: diagnostics that agree
in all three keep the order in which they were found.
-/

import ErrorAccessors.Diagnostic
import ErrorAccessors.Path

namespace ErrorAccessors.Diagnostic

/-- Comparison by file, start offset and code. -/
def compare (first second : Diagnostic) : Ordering :=
  (Path.compare first.span.file second.span.file).then
    ((Ord.compare first.span.start.offset second.span.start.offset).then
      (Ord.compare first.code second.code))

/-- Diagnostics in the order in which they are reported. -/
def sort (diagnostics : List Diagnostic) : List Diagnostic :=
  diagnostics.mergeSort fun first second => compare first second != .gt

/-- Whether any of the diagnostics is an error. -/
def anyError (diagnostics : List Diagnostic) : Bool :=
  diagnostics.any isError

/-- The number of errors. -/
def errorCount (diagnostics : List Diagnostic) : Nat :=
  diagnostics.countP isError

/-- The number of warnings. -/
def warningCount (diagnostics : List Diagnostic) : Nat :=
  diagnostics.countP fun diagnostic => !diagnostic.isError

/-- Sorting only reorders. -/
theorem sort_perm (diagnostics : List Diagnostic) : (sort diagnostics).Perm diagnostics :=
  List.mergeSort_perm ..

end ErrorAccessors.Diagnostic
