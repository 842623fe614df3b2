/-
# Reading token lists

A parser works on a cursor into the tokens of one file: the token just passed
and the tokens still to come.  Reading beyond the last token is the same as
reading an end marker, so there is no such token in the list.  A parser may
record diagnostics and go on, or fail with one; a failure keeps the place where
it arose, because recovery starts there.

Loops are run by `loop`, which allows as many rounds as there are tokens left.
Every loop of this parser uses up a token in each round but the last, so the
bound is never what ends one.
-/

import ErrorAccessors.Diagnostic.Code
import ErrorAccessors.Source.File
import ErrorAccessors.Token

namespace ErrorAccessors

/-- Where a parser stands, and what it has recorded so far. -/
structure Cursor where
  previous : Option Token
  remaining : List Token
  recorded : List Diagnostic

/-- A parser over the tokens of a file. -/
abbrev Parser := ReaderT SourceFile (EStateM Diagnostic Cursor)

namespace Cursor

/-- The beginning of a token list. -/
def start (tokens : List Token) : Cursor := ⟨none, tokens, []⟩

/-- Step over the next token; at the end of the file the cursor stays. -/
def advance (cursor : Cursor) : Cursor :=
  match cursor.remaining with
  | [] => cursor
  | token :: rest => { cursor with previous := some token, remaining := rest }

/-- The kind of the token `ahead` places beyond the next one. -/
def peek? (cursor : Cursor) (ahead : Nat) : Option TokenKind :=
  cursor.remaining[ahead]?.map (·.kind)

end Cursor

namespace Parser

/-- The kind of the next token, unless the file ends. -/
def peek : Parser (Option TokenKind) :=
  return (← get).peek? 0

/-- The kind of the token behind the next one. -/
def peekSecond : Parser (Option TokenKind) :=
  return (← get).peek? 1

/-- Step over the next token. -/
def advance : Parser Unit :=
  modify Cursor.advance

/-- Whether the next token is a mark. -/
def atMark (mark : Mark) : Parser Bool :=
  return (← peek) == some (.mark mark)

/-- Whether the token behind the next one is a mark. -/
def secondIsMark (mark : Mark) : Parser Bool :=
  return (← peekSecond) == some (.mark mark)

/-- The name of the next token, if it is an identifier. -/
def peekName : Parser (Option String) :=
  return (← peek).bind TokenKind.ident?

/-- Whether the next token is an identifier. -/
def atIdent : Parser Bool :=
  return (← peekName).isSome

/-- Whether the token behind the next one is an identifier. -/
def secondIsIdent : Parser Bool :=
  return (← peekSecond).any TokenKind.isIdent

/-- Whether the next token is the identifier with a given name. -/
def atWord (word : String) : Parser Bool :=
  return (← peekName) == some word

/-- Whether no token is left. -/
def atEnd : Parser Bool :=
  return (← get).remaining.isEmpty

/-- The span of the next token; at the end of the file, the empty span
there. -/
def nextSpan : Parser Span := do
  match (← get).remaining with
  | token :: _ => return token.span
  | [] =>
    let file ← read
    return file.span file.size file.size

/-- The span from a start to the token just passed.  If nothing was passed
since, it is the start itself. -/
def spanFrom (start : Span) : Parser Span := do
  match (← get).previous with
  | some token =>
    if start.start.offset ≤ token.span.stop.offset then return start.merge token.span
    else return start
  | none => return start

/-- Record a diagnostic and go on. -/
def record (diagnostic : Diagnostic) : Parser Unit :=
  modify fun cursor => { cursor with recorded := cursor.recorded ++ [diagnostic] }

/-- The diagnostic that says what was expected instead of the next token. -/
def unexpected (expected : String) : Parser Diagnostic := do
  let (code, found) : DiagnosticCode × String :=
    match ← peek with
    | none => (.unexpectedEnd, "end of file")
    | some .openString => (.unterminatedLiteral, TokenKind.describe .openString)
    | some kind => (.unexpectedToken, kind.describe)
  return .error code ("Expected " ++ expected ++ ", found " ++ found) (← nextSpan)

/-- Fail at the next token. -/
def failExpecting {α : Type} (expected : String) : Parser α := do
  throw (← unexpected expected)

/-- Step over a mark if it comes next, and say whether it did. -/
def eat (mark : Mark) : Parser Bool := do
  if ← atMark mark then
    advance
    return true
  return false

/-- Step over a word if it comes next, and say whether it did. -/
def eatWord (word : String) : Parser Bool := do
  if ← atWord word then
    advance
    return true
  return false

/-- Step over a mark that has to come next. -/
def expect (mark : Mark) : Parser Unit := do
  unless ← eat mark do
    failExpecting ("`" ++ mark.text ++ "`")

/-- Step over an identifier that has to come next. -/
def expectIdent : Parser (String × Span) := do
  match ← peekName with
  | some name =>
    let span ← nextSpan
    advance
    return (name, span)
  | none => failExpecting "identifier"

/-- Run a parser, turning a failure into `none`.  The cursor stays where the
parser left it in either case. -/
def attempt {α : Type} (parser : Parser α) : Parser (Option α) := fun file cursor =>
  match parser file cursor with
  | .ok value later => .ok (some value) later
  | .error _ later => .ok none later

/-- Run a parser and hand a failure to `recover`, which goes on from where the
failure arose. -/
def orElse {α : Type} (parser : Parser α) (recover : Diagnostic → Parser α) : Parser α :=
  fun file cursor =>
    match parser file cursor with
    | .ok value later => .ok value later
    | .error diagnostic later => recover diagnostic file later

/-- Repeat a step at most a number of times. -/
def loopWithin {σ : Type} (step : σ → Parser (ForInStep σ)) : Nat → σ → Parser σ
  | 0, state => return state
  | rounds + 1, state => do
    match ← step state with
    | .done result => return result
    | .yield next => loopWithin step rounds next

/-- Repeat a step until it says that it is done. -/
def loop {σ : Type} (state : σ) (step : σ → Parser (ForInStep σ)) : Parser σ := do
  loopWithin step ((← get).remaining.length + 1) state

end Parser

end ErrorAccessors
