/-
# Reading attributes

Attribute lists stand in brackets before a declaration or a type parameter.
The value of an argument is read as a literal when it is exactly one literal
token, possibly behind a minus sign; everything else up to the next comma or
closing delimiter is kept as the text that was written.
-/

import ErrorAccessors.Declaration
import ErrorAccessors.Parser.Skip
import ErrorAccessors.Parser.Type
import ErrorAccessors.Token.Numeral

namespace ErrorAccessors.Parser

/-- The negation of a 64-bit integer, which leaves the least one as it is. -/
def negateWord (value : Int) : Int :=
  (-value).bmod Numeral.wordCount

/-- The literal that a list of tokens is, if it is one. -/
def literal? : List TokenKind → Option AttributeValue
  | [.integer value] => some (.int value)
  | [.mark .minus, .integer value] => some (.int (negateWord value))
  | [.string value] => some (.str value)
  | [.ident "true"] => some (.bool true)
  | [.ident "false"] => some (.bool false)
  | _ => none

/-- The value written by a list of tokens of a file. -/
def argumentValue (file : SourceFile) (tokens : List Token) : AttributeValue :=
  match literal? (tokens.map (·.kind)) with
  | some value => value
  | none =>
    match tokens.head?, tokens.getLast? with
    | some first, some last => .other ((file.slice? (first.span.merge last.span)).getD "")
    | _, _ => .other ""

/-- The marks that end an attribute argument. -/
def argumentEnds : List Mark :=
  [.comma, .rightParen, .rightBracket, .rightBrace, .semicolon]

/-- The tokens of an attribute argument.  Delimited parts belong to it as a
whole. -/
def argumentTokens : Parser (List Token) := do
  let before := (← get).remaining
  loop () fun _ => do
    match ← peek with
    | none => return .done ()
    | some kind =>
      if argumentEnds.any fun mark => kind == .mark mark then return .done ()
      else
        if kind.opens then skipBalanced else advance
        return .yield ()
  let after := (← get).remaining
  return before.take (before.length - after.length)

/-- The name of an argument that is passed by name. -/
def argumentName : Parser (Option String) := do
  if (← atIdent) && ((← secondIsMark .colon) || (← secondIsMark .equals)) then
    let (name, _) ← expectIdent
    advance
    return some name
  else return none

/-- An attribute argument. -/
def attributeArgument : Parser AttributeArgument := do
  let start ← nextSpan
  let name ← argumentName
  let tokens ← argumentTokens
  if tokens.isEmpty then failExpecting "attribute argument"
  return ⟨← spanFrom start, name, argumentValue (← read) tokens⟩

/-- Items separated by commas up to a closing mark, which is read as well.  The
list may be empty and may end with a comma. -/
def listUpTo {α : Type} (close : Mark) (item : Parser α) : Parser (List α) := do
  let found ← loop [] fun found => do
    if ← atMark close then return .done found
    else
      let found := found ++ [← item]
      if ← eat .comma then return .yield found else return .done found
  expect close
  return found

/-- The parts of a dotted name. -/
def dottedName : Parser (List String) := do
  let (first, _) ← expectIdent
  loop [first] fun found => do
    if ← eat .dot then
      let (name, _) ← expectIdent
      return .yield (found ++ [name])
    else return .done found

/-- An attribute.  A qualifier before `::` and type arguments are read but not
recorded. -/
def appliedAttribute : Parser Attribute := do
  let start ← nextSpan
  if (← atIdent) && (← secondIsMark .doubleColon) then
    advance
    advance
  let name ← dottedName
  if ← atMark .less then
    let _ ← typeArguments type
  let arguments ← if ← eat .leftParen then listUpTo .rightParen attributeArgument else pure []
  return ⟨← spanFrom start, name, arguments⟩

/-- The target of an attribute list, if it has one. -/
def attributeTarget : Parser (Option String) := do
  if (← atIdent) && (← secondIsMark .colon) then
    let (name, _) ← expectIdent
    advance
    return some name
  else return none

/-- Attributes between brackets. -/
def attributeList : Parser AttributeList := do
  let start ← nextSpan
  expect .leftBracket
  let target ← attributeTarget
  let attributes ← listUpTo .rightBracket appliedAttribute
  return ⟨← spanFrom start, target, attributes⟩

/-- All attribute lists that come next. -/
def attributeLists : Parser (List AttributeList) :=
  loop [] fun found => do
    if ← atMark .leftBracket then return .yield (found ++ [← attributeList])
    else return .done found

end ErrorAccessors.Parser
