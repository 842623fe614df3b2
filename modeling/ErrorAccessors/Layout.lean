/-
# The layout of generated code

Generated code is written without regard to its looks and laid out afterwards:
blank lines go, white space between code shrinks to single spaces, every line
is indented by the braces that are open before it, and lines that begin with a
number sign stay at the margin.  Literals and comments keep their spaces.
-/

import ErrorAccessors.Layout.Region
import ErrorAccessors.Text.Line
import ErrorAccessors.Unicode.Space

namespace ErrorAccessors.Layout

/-- Shrink the white space between code, given whether a space was written
just before. -/
def shrinkAfter : Bool → List (Char × Region) → List Char
  | _, [] => []
  | afterSpace, (c, region) :: rest =>
    if region = .code ∧ Unicode.isSpace c = true then
      if afterSpace then shrinkAfter true rest else ' ' :: shrinkAfter true rest
    else c :: shrinkAfter (c == ' ') rest

/-- A line without outer white space and with single spaces between code. -/
def tidy (line : List Char) : List Char :=
  shrinkAfter false (Region.mark .code (Unicode.trim line))

/-- The depth of braces behind a line.  Closing more than is open goes to the
margin. -/
def depthBehind (depth : Nat) (line : List Char) : Nat :=
  let code := Region.codeOf line
  depth + code.count '\x7b' - code.count '\x7d'

/-- The depth at which a line is written; a leading closing brace stands one
step further out. -/
def depthOf (depth : Nat) (line : List Char) : Nat :=
  if line.head? = some '\x7d' then depth - 1 else depth

/-- Lay out tidy lines that begin at a depth. -/
def indentFrom : Nat → List (List Char) → List Char
  | _, [] => []
  | depth, line :: rest =>
    if line = [] then indentFrom depth rest
    else if line.head? = some '#' then line ++ '\n' :: indentFrom depth rest
    else
      List.replicate (4 * depthOf depth line) ' ' ++ line ++
        '\n' :: indentFrom (depthBehind depth line) rest

/-- Lay out a text. -/
def normalize (text : String) : String :=
  String.ofList (indentFrom 0 ((Text.lines text.toList).map tidy))

end ErrorAccessors.Layout
