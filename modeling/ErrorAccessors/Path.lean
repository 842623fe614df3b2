/-
# Paths

Paths are slash-separated texts.  They are kept as they are written, because
messages and spans show them that way, but they compare by their components:
repeated slashes, a trailing slash and inner `.` components make no
difference, and `a/b.cs` comes before `a-b.cs`.  A leading `.` is a component,
and `..` is never resolved by text alone.
-/

import ErrorAccessors.Text.Split

namespace ErrorAccessors

/-- One step of a path. -/
inductive PathComponent where
  | root
  | here
  | up
  | name (text : String)
deriving DecidableEq, Repr

namespace PathComponent

/-- The position of the four kinds of steps in the order of paths. -/
def rank : PathComponent → Nat
  | root => 0
  | here => 1
  | up => 2
  | name _ => 3

/-- Steps compare by kind, and names by their characters. -/
def compare : PathComponent → PathComponent → Ordering
  | name first, name second => Ord.compare first second
  | first, second => Ord.compare first.rank second.rank

end PathComponent

namespace Path

/-- The parts of a path between slashes. -/
def parts (path : String) : List (List Char) :=
  Text.splitAt (· = '/') path.toList

/-- The step that a part between slashes stands for, if any. -/
def stepOf (part : List Char) : Option PathComponent :=
  if part = [] ∨ part = ['.'] then none
  else if part = ['.', '.'] then some .up
  else some (.name (String.ofList part))

/-- The components of a path. -/
def components (path : String) : List PathComponent :=
  let first : List PathComponent :=
    match parts path with
    | [] :: _ :: _ => [.root]
    | ['.'] :: _ => [.here]
    | _ => []
  first ++ (parts path).filterMap stepOf

/-- Lexicographic comparison of component lists. -/
def compareComponents : List PathComponent → List PathComponent → Ordering
  | [], [] => .eq
  | [], _ :: _ => .lt
  | _ :: _, [] => .gt
  | first :: firsts, second :: seconds =>
    match first.compare second with
    | .eq => compareComponents firsts seconds
    | other => other

/-- The order of paths. -/
def compare (first second : String) : Ordering :=
  compareComponents (components first) (components second)

/-- Paths in increasing order. -/
def sort (paths : List String) : List String :=
  paths.mergeSort fun first second => compare first second != .gt

/-- Whether a path starts at the root of the file system. -/
def isAbsolute (path : String) : Bool :=
  path.toList.head? == some '/'

/-- Put `tail` behind `path`.  An absolute tail replaces the path, and nothing
is added in front of a tail that follows an empty path. -/
def join (path tail : String) : String :=
  if isAbsolute tail then tail
  else
    match path.toList.getLast? with
    | none => tail
    | some '/' => path ++ tail
    | some _ => path ++ "/" ++ tail

/-- Drop the trailing slashes and `.` parts of a relative text, given its parts
in reverse order. -/
def dropIdleParts : List (List Char) → List (List Char)
  | [] => []
  | part :: parts =>
    if part = [] ∨ part = ['.'] then dropIdleParts parts else part :: parts

/-- Join parts by slashes again. -/
def joinParts : List (List Char) → List Char
  | [] => []
  | [part] => part
  | part :: next :: rest => part ++ '/' :: joinParts (next :: rest)

/-- The path without its last component, as it is written.  There is none for
the root and for the empty path. -/
def parent? (path : String) : Option String :=
  let (lead, body) : List Char × List (List Char) :=
    match parts path with
    | [] :: second :: rest => (['/'], second :: rest)
    | ['.'] :: rest => (['.'], rest)
    | others => ([], others)
  match dropIdleParts body.reverse with
  | [] => if lead = ['.'] then some "" else none
  | _ :: before =>
    match dropIdleParts before with
    | [] => some (String.ofList lead)
    | kept =>
      let shown := joinParts kept.reverse
      if lead = ['.'] then some (String.ofList (lead ++ '/' :: shown))
      else some (String.ofList (lead ++ shown))

/-- A path and what is above it, at most `count` steps up. -/
def ancestorsWithin : Nat → String → List String
  | 0, path => [path]
  | count + 1, path =>
    match parent? path with
    | some parent => path :: ancestorsWithin count parent
    | none => [path]

/-- A path and everything above it, nearest first.  Every step up drops at
least one character, which bounds their number. -/
def ancestors (path : String) : List String :=
  ancestorsWithin path.length path

/-- The name that a path ends with, if its last component is a name. -/
def fileName? (path : String) : Option String :=
  match (components path).getLast? with
  | some (.name text) => some text
  | _ => none

/-- Split a file name at its last dot.  A dot at the very beginning does not
count. -/
def splitExtension (fileName : String) : String × Option String :=
  let reversed := fileName.toList.reverse
  match reversed.dropWhile (· ≠ '.') with
  | [] => (fileName, none)
  | [_] => (fileName, none)
  | _ :: stem =>
    (String.ofList stem.reverse, some (String.ofList (reversed.takeWhile (· ≠ '.')).reverse))

/-- The extension of the name that a path ends with. -/
def extension? (path : String) : Option String :=
  (fileName? path).bind fun fileName => (splitExtension fileName).2

/-- The name that a path ends with, without its extension. -/
def fileStem? (path : String) : Option String :=
  (fileName? path).map fun fileName => (splitExtension fileName).1

example : components "./a//b/./c/" = [.here, .name "a", .name "b", .name "c"] := by decide

example : parent? "other/deep/B.cs" = some "other/deep" := by decide

example : parent? "./resultgen.toml" = some "." := by decide

example : ancestors "./a/b" = ["./a/b", "./a", ".", ""] := by decide

example : compare "a/b.cs" "a-b.cs" = .lt := by decide

end Path

end ErrorAccessors
