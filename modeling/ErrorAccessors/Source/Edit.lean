/-
# Edits

An edit replaces the text of a span.  Several edits of one file are applied
from back to front, so that the offsets of the edits still to come stay valid.
Edits of the same range collapse into the first one given, and an edit that
reaches beyond the end of the text has no effect.
-/

import ErrorAccessors.Source.Span
import ErrorAccessors.Text.Offset

namespace ErrorAccessors

/-- A replacement for the text of a span. -/
structure Edit where
  span : Span
  replacement : String
deriving DecidableEq, Repr, Inhabited

namespace Edit

/-- Whether two edits replace the same range. -/
def sameRange (first second : Edit) : Bool :=
  first.span.start.offset == second.span.start.offset &&
    first.span.stop.offset == second.span.stop.offset

/-- Put an edit into a list that is ordered from back to front, behind the
edits that start at the same place. -/
def insertFromBack (edit : Edit) : List Edit → List Edit
  | [] => [edit]
  | first :: rest =>
    if first.span.start.offset < edit.span.start.offset then edit :: first :: rest
    else first :: insertFromBack edit rest

/-- Order edits from back to front, keeping the given order among edits that
start at the same place. -/
def fromBack (edits : List Edit) : List Edit :=
  edits.foldl (fun ordered edit => insertFromBack edit ordered) []

/-- Drop every edit whose range is that of the edit kept before it. -/
def dropRepeated : List Edit → List Edit
  | [] => []
  | edit :: rest => edit :: dropAfter edit rest
where
  /-- Drop repetitions, given the edit kept last. -/
  dropAfter (kept : Edit) : List Edit → List Edit
    | [] => []
    | edit :: rest =>
      if kept.sameRange edit then dropAfter kept rest else edit :: dropAfter edit rest

/-- Whether an edit is applied to a text at all. -/
def fits (edit : Edit) (text : String) : Bool :=
  edit.span.start.offset ≤ edit.span.stop.offset && edit.span.stop.offset ≤ text.utf8ByteSize

/-- Apply one edit.  There is no result when the edit fits but would cut a
character. -/
def applyTo? (text : String) (edit : Edit) : Option String :=
  if edit.fits text then
    Text.replaceRange? text edit.span.start.offset edit.span.stop.offset edit.replacement
  else some text

/-- Apply a set of edits to a text.  There is no result when one of them would
cut a character. -/
def applyAll? (text : String) (edits : List Edit) : Option String :=
  (dropRepeated (fromBack edits)).foldlM applyTo? text

end Edit

end ErrorAccessors
