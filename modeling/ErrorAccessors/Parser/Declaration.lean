/-
# Reading declarations

The outline of a file is read member by member.  What is recorded are using
directives, namespaces, types and methods; every other member is skipped.  A
member that cannot be read is reported and skipped, and reading goes on behind
it, so that one mistake does not hide the others; but a file with any mistake
has no outline.

As for types, the depth that the recursive readers are given bounds the
nesting, and every level uses up a token.
-/

import ErrorAccessors.Diagnostic.Order
import ErrorAccessors.Parser.Attribute
import ErrorAccessors.Token.Lexer

namespace ErrorAccessors.Parser

/-- The words that may modify a declaration. -/
def modifierWords : List String :=
  ["public", "private", "protected", "internal", "static", "async", "abstract", "virtual",
    "override", "sealed", "readonly", "unsafe", "extern", "new", "partial", "volatile", "const",
    "required", "file", "ref", "fixed"]

/-- The modifiers that come next.  A word in front of a parenthesis is a name
and no modifier. -/
def modifiers : Parser (List Modifier) :=
  loop [] fun found => do
    match ← peekName with
    | none => return .done found
    | some word =>
      if !modifierWords.contains word || (← secondIsMark .leftParen) then return .done found
      else
        let span ← nextSpan
        advance
        return .yield (found ++ [⟨word, span⟩])

/-- A list of type parameters in angle brackets.  Attributes and variance are
read but not recorded. -/
def typeParameters : Parser (List String) := do
  expect .less
  let found ← loop [] fun found => do
    let _ ← attributeLists
    if (← secondIsIdent) && ((← atWord "in") || (← atWord "out")) then advance
    let (name, _) ← expectIdent
    let found := found ++ [name]
    if ← eat .comma then return .yield found else return .done found
  expect .greater
  return found

/-- The text of a dotted name. -/
def qualifiedName : Parser String := do
  return ".".intercalate (← dottedName)

/-- A using directive from its keyword on, where `start` is the span of its
first word. -/
def usingDirective (start : Span) (isGlobal : Bool) : Parser UsingDirective := do
  unless ← eatWord "using" do
    failExpecting "`using`"
  let kind : UsingKind ←
    if ← eatWord "static" then
      pure (.ofStatic (← type).text)
    else if (← atIdent) && (← secondIsMark .equals) then do
      let (name, _) ← expectIdent
      advance
      pure (.ofAlias name (← type).text)
    else pure (.ofNamespace (← qualifiedName))
  expect .semicolon
  return ⟨← spanFrom start, isGlobal, kind⟩

/-- Whether a type declaration comes next.  The word `record` is one only in
front of another word. -/
def atTypeKeyword : Parser Bool := do
  match ← peekName with
  | some "class" | some "struct" | some "interface" | some "enum" => return true
  | some "record" => secondIsIdent
  | _ => return false

/-- The kind of the type declaration that comes next. -/
def typeKind : Parser TypeKind := do
  let word ← peekName
  advance
  match word with
  | some "class" => return .classType
  | some "struct" => return .structType
  | some "interface" => return .interfaceType
  | some "enum" => return .enumType
  | _ =>
    if ← eatWord "struct" then return .recordStruct
    else
      let _ ← eatWord "class"
      return .recordType

/-- Read the closing brace of the declaration that starts at `start`. -/
def closeDeclaration (start : Span) : Parser Unit := do
  unless ← eat .rightBrace do
    throw (.error .missingDelimiter "Expected `\x7d` to close this declaration" start)

/-- Go through members until a round is not started.  Each round reads one
member, recovers if that fails, and steps over a token if nothing was read. -/
def memberLoop {σ α : Type} (atStop : Parser Bool) (member : Parser (Option α))
    (add : σ → α → σ) (state : σ) : Parser σ :=
  loop state fun state => do
    if ← atStop then return .done state
    else if ← skipFault then return .yield state
    else
      let before := (← get).remaining.length
      let read ← orElse member fun diagnostic => do
        record diagnostic
        recoverFrom before
        return none
      if (← get).remaining.length = before then advance
      match read with
      | some found => return .yield (add state found)
      | none => return .yield state

/-- Whether the next member is of a kind that is skipped from its first words:
delegates, events, operators, conversions, finalisers, and constructors or
other members without a return type. -/
def atSkippedMember : Parser Bool := do
  if (← atIdent) && (← secondIsMark .leftParen) then return true
  if ← atMark .tilde then return true
  match ← peekName with
  | some word => return ["delegate", "event", "operator", "implicit", "explicit"].contains word
  | none => return false

/-- The name of a member with its span and type parameters.  An explicit
interface implementation is named by its last part. -/
def memberName : Parser (String × Span × List String) := do
  let (name, span) ← expectIdent
  loop (name, span, []) fun (name, span, parameters) => do
    let parameters ← if ← atMark .less then typeParameters else pure parameters
    if (← atMark .dot) && (← secondIsIdent) then
      advance
      let (name, span) ← expectIdent
      return .yield (name, span, [])
    else return .done (name, span, parameters)

/-- The body of a method. -/
def methodBody : Parser MethodBody := do
  if ← atMark .leftBrace then
    skipBalanced
    return .block
  else if ← eat .arrow then
    skipStatement
    return .expression
  else if ← eat .semicolon then return .absent
  else failExpecting "method body"

/-- A method from its return type on, or another member, which is skipped. -/
def method? (start : Span) (lists : List AttributeList) (words : List Modifier) :
    Parser (Option MethodDecl) := do
  let before ← get
  match ← attempt type with
  | none =>
    set before
    skipMember
    return none
  | some returnType =>
    if !(← atIdent) || (← atWord "operator") || (← atWord "this") then
      skipMember
      return none
    let (name, nameSpan, parameters) ← memberName
    if !(← atMark .leftParen) then
      skipMember
      return none
    skipBalanced
    skipUntil [.leftBrace, .arrow, .semicolon, .rightBrace]
    let body ← methodBody
    return some ⟨← spanFrom start, lists, words, returnType, name, nameSpan, parameters, body⟩

/-- The part of a type declaration between its name and its body: type
parameters, a parameter list, base types and constraints.  Only the type
parameters are recorded. -/
def typeHead : Parser (List String) := do
  let parameters ← if ← atMark .less then typeParameters else pure []
  if ← atMark .leftParen then skipBalanced
  skipUntil [.leftBrace, .semicolon, .rightBrace]
  return parameters

/-- A member of a type, given how to read a nested type. -/
def typeMember
    (nested : Span → List AttributeList → List Modifier → Parser TypeDecl) :
    Parser (Option TypeMember) := do
  let start ← nextSpan
  if ← eat .semicolon then return none
  let lists ← attributeLists
  let words ← modifiers
  if ← atTypeKeyword then return some (.type (← nested start lists words))
  if ← atSkippedMember then
    skipMember
    return none
  return (← method? start lists words).map .method

/-- Whether a body ends here. -/
def atBodyEnd : Parser Bool := do
  return (← atMark .rightBrace) || (← atEnd)

/-- The members of a type of the given kind.  Members of an enumeration are not
recorded. -/
def typeBody (kind : TypeKind) (start : Span) (member : Parser (Option TypeMember)) :
    Parser (List TypeMember) := do
  if ← eat .semicolon then return []
  let members ←
    if kind = .enumType then do
      unless ← atMark .leftBrace do
        failExpecting "`\x7b`"
      skipBalanced
      pure []
    else do
      expect .leftBrace
      let members ← memberLoop atBodyEnd member (fun found member => found ++ [member]) []
      closeDeclaration start
      pure members
  let _ ← eat .semicolon
  return members

/-- A type declaration from its keyword on, whose types nest less than `depth`
levels. -/
def typeDeclWithin :
    Nat → Span → List AttributeList → List Modifier → Parser TypeDecl
  | 0, _, _, _ => failExpecting "type"
  | depth + 1, start, lists, words => do
    let kind ← typeKind
    let (name, nameSpan) ← expectIdent
    let parameters ← typeHead
    let members ← typeBody kind start (typeMember (typeDeclWithin depth))
    return ⟨← spanFrom start, kind, name, nameSpan, parameters, lists, words, members⟩

/-- What a namespace holds. -/
structure NamespaceBody where
  usings : List UsingDirective
  members : List NamespaceMember

/-- One item of a namespace. -/
inductive NamespaceItem where
  | directive (directive : UsingDirective)
  | member (member : NamespaceMember)

/-- Add an item behind those of its sort. -/
def NamespaceBody.add (body : NamespaceBody) : NamespaceItem → NamespaceBody
  | .directive directive => { body with usings := body.usings ++ [directive] }
  | .member member => { body with members := body.members ++ [member] }

/-- Whether a using directive comes next, and not a using statement. -/
def atUsingDirective : Parser Bool := do
  return (← atWord "using") && !(← secondIsMark .leftParen) &&
    !((← peekSecond).any fun kind => kind.isWord "var")

/-- An item of a namespace, given how to read a namespace. -/
def namespaceItem (inner : Span → Parser NamespaceDecl) : Parser (Option NamespaceItem) := do
  let start ← nextSpan
  if (← atWord "global") && ((← peekSecond).any fun kind => kind.isWord "using") then
    advance
    return some (.directive (← usingDirective start true))
  if ← atUsingDirective then return some (.directive (← usingDirective start false))
  if ← eat .semicolon then return none
  let lists ← attributeLists
  if ← atWord "namespace" then return some (.member (.space (← inner start)))
  let words ← modifiers
  if ← atTypeKeyword then
    let depth := (← get).remaining.length + 1
    return some (.member (.type (← typeDeclWithin depth start lists words)))
  skipMember
  return none

/-- Step over closing braces that close nothing, reporting each. -/
def skipStrayBrace : Parser Bool := do
  if ← atMark .rightBrace then
    record (← unexpected "declaration")
    advance
    return true
  else return false

/-- The items of a namespace, given how to read a namespace.  In a braced one a
closing brace ends it; elsewhere it is reported and skipped. -/
def namespaceBody (isBraced : Bool) (inner : Span → Parser NamespaceDecl) :
    Parser NamespaceBody :=
  if isBraced then
    memberLoop atBodyEnd (namespaceItem inner) NamespaceBody.add ⟨[], []⟩
  else
    memberLoop atEnd
      (do if ← skipStrayBrace then return none else namespaceItem inner)
      NamespaceBody.add ⟨[], []⟩

/-- A namespace declaration from its keyword on, whose namespaces nest less
than `depth` levels. -/
def namespaceDeclWithin : Nat → Span → Parser NamespaceDecl
  | 0, _ => failExpecting "declaration"
  | depth + 1, start => do
    advance
    let name ← qualifiedName
    if ← eat .semicolon then
      let body ← namespaceBody false (namespaceDeclWithin depth)
      return ⟨← spanFrom start, name, true, body.usings, body.members⟩
    else
      expect .leftBrace
      let body ← namespaceBody true (namespaceDeclWithin depth)
      closeDeclaration start
      let _ ← eat .semicolon
      return ⟨← spanFrom start, name, false, body.usings, body.members⟩

/-- Report the string literals that are not closed.  They are found also inside
parts that are skipped. -/
def openStrings (tokens : List Token) : List Diagnostic :=
  (tokens.filter fun token => token.kind = .openString).map fun token =>
    .error .unterminatedLiteral "Unterminated string literal" token.span

/-- The items of a whole file. -/
def fileBody : Parser NamespaceBody := do
  let depth := (← get).remaining.length + 1
  namespaceBody false (namespaceDeclWithin depth)

end Parser

/-- The outline of a source file with some tokens, or what is wrong with it. -/
def SourceFile.outlineOf (file : SourceFile) (tokens : List Token) :
    Except (List Diagnostic) SourceUnit :=
  let start : Cursor := { Cursor.start tokens with recorded := Parser.openStrings tokens }
  match Parser.fileBody file start with
  | .ok body cursor =>
    if Diagnostic.anyError cursor.recorded then .error cursor.recorded
    else .ok ⟨file.path, file.span 0 file.size, body.usings, body.members⟩
  | .error diagnostic cursor => .error (cursor.recorded ++ [diagnostic])

/-- The outline of a source file, or what is wrong with it. -/
def SourceFile.outline (file : SourceFile) : Except (List Diagnostic) SourceUnit :=
  file.outlineOf (Token.tokens file)

/-- The outline of a text under a path. -/
def SourceUnit.parse (text path : String) : Except (List Diagnostic) SourceUnit :=
  (SourceFile.ofText path text).outline

/-- Read a text as exactly one type. -/
def TypeExpr.parse (text : String) : Except (List Diagnostic) TypeExpr :=
  let file := SourceFile.ofText "<type>" text
  let whole : Parser TypeExpr := do
    let type ← Parser.type
    unless ← Parser.atEnd do
      Parser.failExpecting "end of type"
    return type
  match whole file (Cursor.start (Token.tokens file)) with
  | .ok type _ => .ok type
  | .error diagnostic cursor => .error (cursor.recorded ++ [diagnostic])

end ErrorAccessors
