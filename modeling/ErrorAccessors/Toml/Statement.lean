/-
# The statements of a settings file

A file is a sequence of lines that give a key a value or open a table.  This
module reads the statements; what they amount to is decided afterwards.  A
value may hold further values in brackets or braces, only so many levels deep.
-/

import ErrorAccessors.Toml.Number
import ErrorAccessors.Toml.Quoted

namespace ErrorAccessors

/-- A statement of a file.  Paths are the parts of a dotted key. -/
inductive TomlStatement where
  | entry (path : List String) (key : String) (value : TomlValue)
  /-- A table header. -/
  | header (path : List String) (key : String)
  /-- The header of one more table of an array. -/
  | element (path : List String) (key : String)

namespace TomlTable

/-- Add an entry by its dotted path.  The key must be new, the table that gets
it must be made by dotted keys too, and no table on the way may have a header
or braces of its own. -/
def addDotted (table : TomlTable) (key : String) (value : TomlValue) :
    List String → Option TomlTable
  | [] => if (table.find? key).isSome then none else some (table.insert key value)
  | step :: path =>
    match table.find? step with
    | none =>
      (addDotted (.empty .dotted) key value path).map fun child => table.insert step (.table child)
    | some (.table child) =>
      if child.origin = .dotted ∨ child.origin = .implied ∧ path ≠ [] then
        (addDotted child key value path).map fun later => table.insert step (.table later)
      else none
    | some (.tables elements) =>
      match elements.getLast? with
      | some last =>
        if path ≠ [] then
          (addDotted last key value path).map fun later =>
            table.insert step (.tables (elements.dropLast ++ [later]))
        else none
      | none => none
    | some _ => none

end TomlTable

namespace Toml

/-- A reader takes what it reads from the front of a text, or fails. -/
abbrev Reader := StateT (List Char) Option

namespace Reader

/-- The next character, unless the text ends. -/
def peek : Reader (Option Char) :=
  return (← get).head?

/-- Read by a function that answers with the rest. -/
def ofFunction {α : Type} (read : List Char → Option (α × List Char)) : Reader α :=
  fun text => read text

/-- Pass over a character if it comes next, and say whether it did. -/
def eat (c : Char) : Reader Bool := do
  if (← peek) = some c then
    modify List.tail
    return true
  return false

/-- Pass over a character that has to come next. -/
def expect (c : Char) : Reader Unit := do
  unless ← eat c do
    failure

/-- Pass over blanks. -/
def skipBlanks : Reader Unit :=
  modify fun text => text.dropWhile fun c => c == ' ' || c == '\t'

/-- Pass over a comment, if there is one. -/
def skipComment : Reader Unit := do
  if ← eat '#' then
    modify fun text => text.dropWhile isPlain

/-- Pass over the end of a line or of the file. -/
def expectLineEnd : Reader Unit := do
  match ← get with
  | [] => return ()
  | '\n' :: rest => set rest
  | '\r' :: '\n' :: rest => set rest
  | _ => failure

/-- Pass over what may stand behind a statement. -/
def finishLine : Reader Unit := do
  skipBlanks
  skipComment
  expectLineEnd

/-- Repeat a step, at most as often as characters are left, until it says that
it is done. -/
def loopWithin {σ : Type} (step : σ → Reader (ForInStep σ)) : Nat → σ → Reader σ
  | 0, _ => failure
  | rounds + 1, state => do
    match ← step state with
    | .done result => return result
    | .yield next => loopWithin step rounds next

/-- Repeat a step until it says that it is done. -/
def loop {σ : Type} (state : σ) (step : σ → Reader (ForInStep σ)) : Reader σ := do
  loopWithin step ((← get).length + 2) state

/-- Pass over blanks, line ends and comments. -/
def skipSpace : Reader Unit :=
  loop () fun () => do
    skipBlanks
    match ← get with
    | '\n' :: rest => set rest; return .yield ()
    | '\r' :: '\n' :: rest => set rest; return .yield ()
    | '#' :: _ => skipComment; return .yield ()
    | _ => return .done ()

/-- The characters of keys without quotes. -/
def isBareKey (c : Char) : Bool :=
  c.isAlphanum || c == '_' || c == '-'

/-- One part of a key. -/
def simpleKey : Reader String := do
  match ← get with
  | '"' :: rest =>
    let (text, later) ← liftM (readBasic rest)
    set later
    return String.ofList text
  | '\'' :: rest =>
    let (text, later) ← liftM (readLiteral rest)
    set later
    return String.ofList text
  | text =>
    let name := text.takeWhile isBareKey
    if name = [] then failure
    set (text.drop name.length)
    return String.ofList name

/-- The greatest number of parts of a key and of levels of values. -/
def maximalDepth : Nat := 79

/-- A dotted key: the parts before the last, and the last. -/
def dottedKey : Reader (List String × String) := do
  let (path, key) ← loop (([], "") : List String × String) fun (path, _) => do
    skipBlanks
    let key ← simpleKey
    skipBlanks
    if ← eat '.' then return .yield (path ++ [key], "")
    else return .done (path, key)
  if maximalDepth ≤ path.length then failure
  return (path, key)

/-- A word that has to come next. -/
def word (text : String) : Reader Unit := do
  for c in text.toList do
    expect c

/-- The values between brackets. -/
def arrayItems (value : Reader TomlValue) : Reader (List TomlValue) :=
  loop [] fun items => do
    skipSpace
    if ← eat ']' then return .done items
    let items := items ++ [← value]
    skipSpace
    if ← eat ',' then return .yield items
    expect ']'
    return .done items

/-- The entries between braces. -/
def inlineEntries (value : Reader TomlValue) : Reader TomlTable := do
  skipBlanks
  if ← eat '\x7d' then return .empty .inline
  loop (TomlTable.empty .inline) fun table => do
    let (path, key) ← dottedKey
    expect '='
    skipBlanks
    let item ← value
    skipBlanks
    match table.addDotted key item path with
    | none => failure
    | some later =>
      if ← eat ',' then return .yield later
      expect '\x7d'
      return .done later

/-- A value that holds no others. -/
def scalar : Reader TomlValue := do
  match ← peek with
  | some '"' | some '\'' => return .string (String.ofList (← ofFunction readQuoted))
  | some 't' => word "true"; return .boolean true
  | some 'f' => word "false"; return .boolean false
  | _ => ofFunction readNumber

/-- A value that holds others at most so many levels deep. -/
def valueWithin : Nat → Reader TomlValue
  | 0 => scalar
  | depth + 1 => do
    if ← eat '[' then return .array (← arrayItems (valueWithin depth))
    else if ← eat '\x7b' then return .table (← inlineEntries (valueWithin depth))
    else scalar

/-- A value. -/
def value : Reader TomlValue :=
  valueWithin maximalDepth

/-- A table header, behind its first bracket. -/
def header : Reader TomlStatement := do
  if ← eat '[' then
    let (path, key) ← dottedKey
    word "]]"
    return .element path key
  else
    let (path, key) ← dottedKey
    expect ']'
    return .header path key

/-- A key with its value. -/
def entry : Reader TomlStatement := do
  let (path, key) ← dottedKey
  expect '='
  skipBlanks
  return .entry path key (← value)

/-- All statements of a file. -/
def statements : Reader (List TomlStatement) := do
  let _ ← eat '\ufeff'
  loop [] fun read => do
    skipSpace
    if (← get).isEmpty then return .done read
    let statement ← if ← eat '[' then header else entry
    finishLine
    return .yield (read ++ [statement])

end Reader

end Toml

end ErrorAccessors
