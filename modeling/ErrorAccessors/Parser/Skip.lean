/-
# Skipping what is not recorded

Bodies, initialisers, parameter lists and members other than methods and types
are skipped by counting delimiters, so that nothing about statements and
expressions has to be known.  Delimiters of different kinds are counted
together.  A delimiter that is never closed is reported where it was opened.
-/

import ErrorAccessors.Parser.Basic

namespace ErrorAccessors.Parser

/-- The token that brings the nesting depth back to zero, and the tokens behind
it, if the delimiters opened so far are closed. -/
def closing? : Nat → List Token → Option (Token × List Token)
  | _, [] => none
  | depth, token :: rest =>
    if token.kind.opens then closing? (depth + 1) rest
    else if token.kind.closes then
      if depth ≤ 1 then some (token, rest) else closing? (depth - 1) rest
    else closing? depth rest

/-- Skip from an opening delimiter through the one that closes it. -/
def skipBalanced : Parser Unit := do
  let opening ← nextSpan
  let cursor ← get
  match closing? 0 cursor.remaining with
  | some (token, rest) => set { cursor with previous := some token, remaining := rest }
  | none =>
    let last := cursor.remaining.getLast?.or cursor.previous
    set { cursor with previous := last, remaining := [] }
    record (.error .missingDelimiter "Unclosed delimiter" opening)

/-- Skip to a token of one of the given marks, or to the end of the file.
Parentheses and brackets are skipped as a whole. -/
def skipUntil (marks : List Mark) : Parser Unit :=
  loop () fun _ => do
    match ← peek with
    | none => return .done ()
    | some (.mark mark) =>
      if marks.contains mark then return .done ()
      else
        if mark = .leftParen ∨ mark = .leftBracket then skipBalanced else advance
        return .yield ()
    | some _ =>
      advance
      return .yield ()

/-- Skip to the end of a statement: through its semicolon, or up to the end of
the enclosing block. -/
def skipStatement : Parser Unit :=
  loop () fun _ => do
    match ← peek with
    | none => return .done ()
    | some (.mark .rightBrace) => return .done ()
    | some (.mark .semicolon) =>
      advance
      return .done ()
    | some kind =>
      if kind.opens then skipBalanced else advance
      return .yield ()

/-- Skip a member that is not recorded: through its semicolon, or through its
block and an initialiser that follows the block. -/
def skipMember : Parser Unit :=
  loop () fun _ => do
    match ← peek with
    | none => return .done ()
    | some (.mark .rightBrace) => return .done ()
    | some (.mark .semicolon) =>
      advance
      return .done ()
    | some (.mark .leftBrace) =>
      skipBalanced
      if ← atMark .equals then return .yield () else return .done ()
    | some kind =>
      if kind.opens then skipBalanced else advance
      return .yield ()

/-- Go on behind a member that could not be read: step at least over one
token, and to the end of the member. -/
def recoverFrom (before : Nat) : Parser Unit := do
  if (← get).remaining.length = before then advance
  skipMember

/-- Report a token that is no token of the language and step over it. -/
def skipFault : Parser Bool := do
  match ← peek with
  | some (.fault _) =>
    record (← unexpected "declaration")
    advance
    return true
  | _ => return false

end ErrorAccessors.Parser
