/-
# Source files

A source file is a path, its text and the table of line starts.  The table is
determined by the text, which the last field records; it is kept only so that
it is not computed again for every position.
-/

import ErrorAccessors.Source.Span
import ErrorAccessors.Text.Line

namespace ErrorAccessors

/-- A named text together with the offsets at which its lines start. -/
structure SourceFile where
  path : String
  text : String
  lineStarts : List Nat
  lineStarts_eq : lineStarts = Text.lineStarts text

namespace SourceFile

/-- The source file with a given path and text. -/
def ofText (path text : String) : SourceFile :=
  ⟨path, text, Text.lineStarts text, rfl⟩

/-- The number of bytes of the file. -/
def size (file : SourceFile) : Nat :=
  file.text.utf8ByteSize

/-- The position of a byte offset.  Its line is the last one that starts at or
before the offset; offsets beyond the end extend the last line.  The column is
a word, and the one behind the last word is zero again. -/
def position (file : SourceFile) (offset : Nat) : Position :=
  let begun := file.lineStarts.filter (· ≤ offset)
  ⟨offset, begun.length, (offset - begun.getLastD 0 + 1) % Position.wordCount⟩

/-- The span between two byte offsets. -/
def span (file : SourceFile) (start stop : Nat) : Span :=
  ⟨file.path, file.position start, file.position stop⟩

/-- The text that a span covers, if the span lies in the file and cuts no
character. -/
def slice? (file : SourceFile) (span : Span) : Option String :=
  Text.slice? file.text span.start.offset span.stop.offset

@[simp]
theorem position_offset (file : SourceFile) (offset : Nat) :
    (file.position offset).offset = offset := rfl

@[simp]
theorem span_file (file : SourceFile) (start stop : Nat) :
    (file.span start stop).file = file.path := rfl

end SourceFile

end ErrorAccessors
