/-
# Reading types

A type is a keyword, a tuple or a dotted name, followed by any number of
nullable, pointer and array suffixes.  Angle brackets behind a name are type
arguments only if they hold a list of types; otherwise they are left alone,
because they may be comparisons.

The depth that `typeWithin` is given bounds how deep types may nest.  Every
level uses up an opening parenthesis or angle bracket, so the number of tokens
is bound enough.
-/

import ErrorAccessors.Parser.Basic
import ErrorAccessors.TypeExpr

namespace ErrorAccessors.Parser

/-- Type arguments between angle brackets, given how to read one.  If the
brackets hold no list of types, nothing is read. -/
def typeArguments (type : Parser TypeExpr) : Parser (List TypeExpr) := do
  let before ← get
  advance
  let arguments ← loop [] fun found => do
    match ← attempt type with
    | none => return .done found
    | some argument =>
      let found := found ++ [argument]
      if ← eat .comma then return .yield found else return .done found
  if arguments.isEmpty then
    set before
    return []
  else if ← eat .greater then return arguments
  else
    set before
    return []

/-- The parts of a dotted name with their type arguments. -/
def nameSegments (type : Parser TypeExpr) : Parser (List NameSegment) :=
  loop [] fun found => do
    let (name, _) ← expectIdent
    let arguments ← if ← atMark .less then typeArguments type else pure []
    let found := found ++ [⟨name, arguments⟩]
    if (← atMark .dot) && (← secondIsIdent) then
      advance
      return .yield found
    else return .done found

/-- A named type, given how to read a type argument. -/
def namedType (type : Parser TypeExpr) (start : Span) : Parser TypeExpr := do
  let qualifier ← if ← secondIsMark .doubleColon then do
      let (name, _) ← expectIdent
      advance
      pure (some name)
    else pure none
  let segments ← nameSegments type
  return .named qualifier segments (← spanFrom start)

/-- A tuple type, given how to read an element. -/
def tupleType (type : Parser TypeExpr) (start : Span) : Parser TypeExpr := do
  advance
  let elements ← loop [] fun found => do
    let element ← type
    let name ← peekName
    if name.isSome then advance
    let found := found ++ [⟨element, name⟩]
    if ← eat .comma then return .yield found else return .done found
  expect .rightParen
  return .tuple elements (← spanFrom start)

/-- The suffixes behind a type. -/
def typeSuffixes (start : Span) (head : TypeExpr) : Parser TypeExpr :=
  loop head fun type => do
    if ← eat .question then return .yield (.nullable type (← spanFrom start))
    else if ← eat .star then return .yield (.pointer type (← spanFrom start))
    else if (← atMark .leftBracket) &&
        ((← secondIsMark .rightBracket) || (← secondIsMark .comma)) then
      advance
      let rank ← loop 1 fun rank => do
        if ← eat .comma then return .yield (rank + 1) else return .done rank
      expect .rightBracket
      return .yield (.array type rank (← spanFrom start))
    else return .done type

/-- A type whose parts nest less than `depth` levels. -/
def typeWithin : Nat → Parser TypeExpr
  | 0 => failExpecting "type"
  | depth + 1 => do
    let start ← nextSpan
    if ← atMark .leftParen then
      typeSuffixes start (← tupleType (typeWithin depth) start)
    else
      match ← peekName with
      | none => failExpecting "type"
      | some name =>
        if TypeExpr.keywords.contains name then
          advance
          typeSuffixes start (.predefined name start)
        else typeSuffixes start (← namedType (typeWithin depth) start)

/-- A type. -/
def type : Parser TypeExpr := do
  typeWithin ((← get).remaining.length + 1)

end ErrorAccessors.Parser
