/-
# Lines of a text

A line ends at a line feed.  Two views are needed: the byte offsets at which
lines start, from which positions are computed, and the lines themselves
without their line ends, which is what a reader sees.  A carriage return in
front of a line feed belongs to the line end.
-/

import ErrorAccessors.Text.Offset

namespace ErrorAccessors.Text

/-- Offsets just behind each line feed of a text that begins at `offset`. -/
def lineStartsFrom : Nat → List Char → List Nat
  | _, [] => []
  | offset, c :: rest =>
    let next := offset + c.utf8Size
    if c = '\n' then next :: lineStartsFrom next rest else lineStartsFrom next rest

/-- The byte offsets at which the lines of a text start, in increasing order.
The first line starts at zero, also in an empty text. -/
def lineStarts (text : String) : List Nat :=
  0 :: lineStartsFrom 0 text.toList

/-- Split at line feeds.  A text that ends with a line feed has no further
line behind it, and the empty text has no lines. -/
def rawLines : List Char → List (List Char × Bool)
  | [] => []
  | '\n' :: rest => ([], true) :: rawLines rest
  | c :: rest =>
    match rawLines rest with
    | [] => [([c], false)]
    | (line, ended) :: others =>
      -- The next line is this line's tail, since `c` is no line feed.
      (c :: line, ended) :: others

/-- Remove one carriage return from the end of a line. -/
def dropCarriageReturn (line : List Char) : List Char :=
  match line.reverse with
  | '\r' :: rest => rest.reverse
  | _ => line

/-- The lines of a text without their line ends.  A carriage return at the end
of a last line that no line feed ends is kept. -/
def lines (text : List Char) : List (List Char) :=
  (rawLines text).map fun (line, ended) => if ended then dropCarriageReturn line else line

end ErrorAccessors.Text
