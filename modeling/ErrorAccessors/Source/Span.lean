/-
# Positions and spans

A position names a place between two characters of a source file, both as a
byte offset and as a line and column, all of them computed once when the
position is made.  A span is the stretch between two positions of one file.
Spans compare and merge by byte offset alone; the lines and columns travel with
the offsets they belong to.
-/

namespace ErrorAccessors

/-- A place in a source file: a byte offset from zero, and the line and the
byte column, both from one. -/
structure Position where
  offset : Nat
  line : Nat
  column : Nat
deriving DecidableEq, Repr, Inhabited

namespace Position

/-- The beginning of a file. -/
def origin : Position := ⟨0, 1, 1⟩

/-- The number of machine words, `2 ^ 64`.  Offsets and columns are words. -/
def wordCount : Nat := 0x10000000000000000

end Position

/-- A stretch of a source file; `stop` is the position just behind it. -/
structure Span where
  file : String
  start : Position
  stop : Position
deriving DecidableEq, Repr, Inhabited

namespace Span

/-- The empty span at the beginning of a file, used where no better place is
known. -/
def atFileStart (file : String) : Span :=
  ⟨file, Position.origin, Position.origin⟩

/-- The smallest span that covers both, in the file of the first. -/
def merge (first second : Span) : Span where
  file := first.file
  start := if first.start.offset ≤ second.start.offset then first.start else second.start
  stop := if second.stop.offset ≤ first.stop.offset then first.stop else second.stop

/-- Whether an offset falls inside a span.  The end counts as inside, so that a
cursor right behind a word still hits it. -/
def contains (span : Span) (offset : Nat) : Bool :=
  span.start.offset ≤ offset && offset ≤ span.stop.offset

/-- The number of bytes covered; a reversed span covers none. -/
def length (span : Span) : Nat :=
  span.stop.offset - span.start.offset

/-- Whether a span covers no bytes. -/
def isEmpty (span : Span) : Bool :=
  span.length == 0

@[simp]
theorem merge_file (first second : Span) : (first.merge second).file = first.file := rfl

/-- A merged span starts at the lesser of the two start offsets. -/
theorem merge_start_offset (first second : Span) :
    (first.merge second).start.offset = min first.start.offset second.start.offset := by
  simp only [merge]
  split <;> omega

/-- A merged span stops at the greater of the two stop offsets. -/
theorem merge_stop_offset (first second : Span) :
    (first.merge second).stop.offset = max first.stop.offset second.stop.offset := by
  simp only [merge]
  split <;> omega

theorem contains_iff {span : Span} {offset : Nat} :
    span.contains offset = true ↔ span.start.offset ≤ offset ∧ offset ≤ span.stop.offset := by
  simp [contains]

end Span

end ErrorAccessors
