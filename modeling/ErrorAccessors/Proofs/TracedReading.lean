/-
# The rounds in which a file is read

Whatever is read round by round is read by a loop, and a round may run further loops
within.  A traced parser is a parser that also tells the rounds that it goes through
wherever it is run, in the order in which they start.  A trace also shows where a bound is
met, the number of rounds that a loop is allowed or the depth of the nesting: that counts
as a round that breaks off.

The readers of types, attributes, names and methods and what skips the rest are traced
here, with every loop that they have.  Without the rounds they are the readers themselves.
Delimited parts are skipped by recursion on the tokens and go through no rounds.
-/

import ErrorAccessors.Proofs.MemberReading

namespace ErrorAccessors.Parser

/-- How a round of a loop ends. -/
inductive RoundEnd where
  /-- Another round follows. -/
  | goesOn
  /-- The loop is left. -/
  | leaves
  /-- There is no round, since no more are allowed. -/
  | breaksOff
deriving DecidableEq, Repr

/-- What is read round by round. -/
inductive LoopKind where
  /-- The members of a file, a namespace or a type. -/
  | ofMembers
  /-- The parts of anything else. -/
  | ofParts
deriving DecidableEq, Repr

/-- A round of a loop, from where it starts to where it stops. -/
structure Round where
  kind : LoopKind
  start : Cursor
  stop : Cursor
  ending : RoundEnd

/-- A parser with the rounds that it goes through where it is run. -/
structure Traced (α : Type) where
  parser : Parser α
  rounds : SourceFile → Cursor → List Round

/-- Where a run stops, whether it fails or not. -/
def stopOf {α : Type} : EStateM.Result Diagnostic Cursor α → Cursor
  | .ok _ later => later
  | .error _ later => later

@[simp] theorem stopOf_ok {α : Type} (value : α) (later : Cursor) :
    stopOf (.ok value later) = later := rfl

@[simp] theorem stopOf_error {α : Type} (diagnostic : Diagnostic) (later : Cursor) :
    stopOf (.error diagnostic later : EStateM.Result Diagnostic Cursor α) = later := rfl

namespace Traced

variable {α β σ : Type}

/-- A parser without rounds. -/
def silent (parser : Parser α) : Traced α :=
  ⟨parser, fun _ _ => []⟩

instance : Monad Traced where
  pure value := silent (pure value)
  bind first next :=
    { parser := first.parser >>= fun value => (next value).parser
      rounds := fun file cursor => first.rounds file cursor ++
        match first.parser file cursor with
        | .ok value later => (next value).rounds file later
        | .error _ _ => [] }

instance : MonadLift Parser Traced := ⟨silent⟩

section Combinators

/-- Nothing more is allowed here. -/
def breakOff (kind : LoopKind) (parser : Parser α) : Traced α where
  parser := parser
  rounds _ cursor := [⟨kind, cursor, cursor, .breaksOff⟩]

/-- A step of a loop as a round, in front of the rounds within. -/
def round (kind : LoopKind) (step : Traced (ForInStep σ)) : Traced (ForInStep σ) where
  parser := step.parser
  rounds file cursor :=
    let outcome := step.parser file cursor
    let ending : RoundEnd :=
      match outcome with
      | .ok (.yield _) _ => .goesOn
      | _ => .leaves
    ⟨kind, cursor, stopOf outcome, ending⟩ :: step.rounds file cursor

def loopWithin (kind : LoopKind) (step : σ → Traced (ForInStep σ)) : Nat → σ → Traced σ
  | 0, state => breakOff kind (pure state)
  | rounds + 1, state => do
    match ← round kind (step state) with
    | .done result => return result
    | .yield next => loopWithin kind step rounds next

def loop (kind : LoopKind) (state : σ) (step : σ → Traced (ForInStep σ)) : Traced σ := do
  loopWithin kind step ((← get).remaining.length + 1) state

def attempt (traced : Traced α) : Traced (Option α) where
  parser := Parser.attempt traced.parser
  rounds := traced.rounds

def orElse (traced : Traced α) (recover : Diagnostic → Traced α) : Traced α where
  parser := Parser.orElse traced.parser fun diagnostic => (recover diagnostic).parser
  rounds file cursor := traced.rounds file cursor ++
    match traced.parser file cursor with
    | .ok _ _ => []
    | .error diagnostic later => (recover diagnostic).rounds file later

end Combinators

section Skipping

def skipBy (action : TokenKind → SkipAction) : Traced Unit :=
  loop .ofParts () fun _ => liftM (skipRound action ())

def skipUntil (marks : List Mark) : Traced Unit :=
  skipBy (untilAction marks)

def skipStatement : Traced Unit :=
  skipBy statementAction

def skipMember : Traced Unit :=
  skipBy memberAction

def recoverFrom (before : Nat) : Traced Unit := do
  if (← get).remaining.length = before then advance
  skipMember

end Skipping

section Types

/-- One round of reading type arguments. -/
def argumentRound (type : Traced TypeExpr) (found : List TypeExpr) :
    Traced (ForInStep (List TypeExpr)) := do
  match ← attempt type with
  | none => return .done found
  | some argument =>
    let found := found ++ [argument]
    if ← eat .comma then return .yield found else return .done found

def typeArguments (type : Traced TypeExpr) : Traced (List TypeExpr) := do
  let before ← get
  advance
  let arguments ← loop .ofParts [] (argumentRound type)
  if arguments.isEmpty then
    set before
    return []
  else if ← eat .greater then return arguments
  else
    set before
    return []

/-- One round of reading a dotted name. -/
def segmentRound (type : Traced TypeExpr) (found : List NameSegment) :
    Traced (ForInStep (List NameSegment)) := do
  let (name, _) ← expectIdent
  let arguments ← if ← atMark .less then typeArguments type else pure []
  let found := found ++ [⟨name, arguments⟩]
  if (← atMark .dot) && (← secondIsIdent) then
    advance
    return .yield found
  else return .done found

def namedType (type : Traced TypeExpr) (start : Span) : Traced TypeExpr := do
  let qualifier ← if ← secondIsMark .doubleColon then do
      let (name, _) ← expectIdent
      advance
      pure (some name)
    else pure none
  let segments ← loop .ofParts [] (segmentRound type)
  return .named qualifier segments (← spanFrom start)

/-- One round of reading tuple elements. -/
def elementRound (type : Traced TypeExpr) (found : List TupleElement) :
    Traced (ForInStep (List TupleElement)) := do
  let element ← type
  let name ← peekName
  if name.isSome then advance
  let found := found ++ [⟨element, name⟩]
  if ← eat .comma then return .yield found else return .done found

def tupleType (type : Traced TypeExpr) (start : Span) : Traced TypeExpr := do
  advance
  let elements ← loop .ofParts [] (elementRound type)
  expect .rightParen
  return .tuple elements (← spanFrom start)

/-- One round of reading suffixes. -/
def suffixRound (start : Span) (type : TypeExpr) : Traced (ForInStep TypeExpr) := do
  if ← eat .question then return .yield (.nullable type (← spanFrom start))
  else if ← eat .star then return .yield (.pointer type (← spanFrom start))
  else if (← atMark .leftBracket) &&
      ((← secondIsMark .rightBracket) || (← secondIsMark .comma)) then
    advance
    let rank ← loop .ofParts 1 fun rank => liftM (rankRound rank)
    expect .rightBracket
    return .yield (.array type rank (← spanFrom start))
  else return .done type

def typeSuffixes (start : Span) (head : TypeExpr) : Traced TypeExpr :=
  loop .ofParts head (suffixRound start)

/-- A type whose parts nest less than a depth. -/
def typeWithin : Nat → Traced TypeExpr
  | 0 => breakOff .ofParts (failExpecting "type")
  | depth + 1 => do
    let start ← nextSpan
    if ← atMark .leftParen then
      typeSuffixes start (← tupleType (typeWithin depth) start)
    else
      match ← peekName with
      | none => failExpecting "type"
      | some name =>
        if TypeExpr.keywords.contains name then
          advance
          typeSuffixes start (.predefined name start)
        else typeSuffixes start (← namedType (typeWithin depth) start)

def type : Traced TypeExpr := do
  typeWithin ((← get).remaining.length + 1)

end Types

section Attributes

def argumentTokens : Traced (List Token) := do
  let before := (← get).remaining
  skipBy argumentAction
  let after := (← get).remaining
  return before.take (before.length - after.length)

def attributeArgument : Traced AttributeArgument := do
  let start ← nextSpan
  let name ← argumentName
  let tokens ← argumentTokens
  if tokens.isEmpty then failExpecting "attribute argument"
  return ⟨← spanFrom start, name, argumentValue (← read) tokens⟩

/-- One round of reading items between commas. -/
def itemRound (close : Mark) (item : Traced α) (found : List α) :
    Traced (ForInStep (List α)) := do
  if ← atMark close then return .done found
  else
    let found := found ++ [← item]
    if ← eat .comma then return .yield found else return .done found

def listUpTo (close : Mark) (item : Traced α) : Traced (List α) := do
  let found ← loop .ofParts [] (itemRound close item)
  expect close
  return found

def dottedName : Traced (List String) := do
  let (first, _) ← expectIdent
  loop .ofParts [first] fun found => liftM (dotRound found)

def appliedAttribute : Traced Attribute := do
  let start ← nextSpan
  if (← atIdent) && (← secondIsMark .doubleColon) then
    advance
    advance
  let name ← dottedName
  if ← atMark .less then
    let _ ← typeArguments type
  let arguments ← if ← eat .leftParen then listUpTo .rightParen attributeArgument else pure []
  return ⟨← spanFrom start, name, arguments⟩

def attributeList : Traced AttributeList := do
  let start ← nextSpan
  expect .leftBracket
  let target ← attributeTarget
  let attributes ← listUpTo .rightBracket appliedAttribute
  return ⟨← spanFrom start, target, attributes⟩

/-- One round of reading attribute lists. -/
def listRound (found : List AttributeList) : Traced (ForInStep (List AttributeList)) := do
  if ← atMark .leftBracket then return .yield (found ++ [← attributeList])
  else return .done found

def attributeLists : Traced (List AttributeList) :=
  loop .ofParts [] listRound

end Attributes

section Methods

def modifiers : Traced (List Modifier) :=
  loop .ofParts [] fun found => liftM (modifierRound found)

/-- One round of reading type parameters. -/
def parameterRound (found : List String) : Traced (ForInStep (List String)) := do
  let _ ← attributeLists
  (do if ← atVariance then advance)
  let (name, _) ← expectIdent
  let found := found ++ [name]
  if ← eat .comma then return .yield found else return .done found

def typeParameters : Traced (List String) := do
  expect .less
  let found ← loop .ofParts [] parameterRound
  expect .greater
  return found

def qualifiedName : Traced String := do
  return ".".intercalate (← dottedName)

def usingDirective (start : Span) (isGlobal : Bool) : Traced UsingDirective := do
  unless ← eatWord "using" do
    failExpecting "`using`"
  let kind : UsingKind ←
    if ← eatWord "static" then
      pure (.ofStatic (← type).text)
    else if (← atIdent) && (← secondIsMark .equals) then do
      let (name, _) ← expectIdent
      advance
      pure (.ofAlias name (← type).text)
    else pure (.ofNamespace (← qualifiedName))
  expect .semicolon
  return ⟨← spanFrom start, isGlobal, kind⟩

/-- One round of reading the name of a member. -/
def nameRound (found : String × Span × List String) :
    Traced (ForInStep (String × Span × List String)) := do
  let parameters ← if ← atMark .less then typeParameters else pure found.2.2
  if ← atNextPart then
    advance
    let (name, span) ← expectIdent
    return .yield (name, span, [])
  else return .done (found.1, found.2.1, parameters)

def memberName : Traced (String × Span × List String) := do
  let (name, span) ← expectIdent
  loop .ofParts (name, span, []) nameRound

def methodBody : Traced MethodBody := do
  if ← atMark .leftBrace then
    skipBalanced
    return .block
  else if ← eat .arrow then
    skipStatement
    return .expression
  else if ← eat .semicolon then return .absent
  else failExpecting "method body"

def method? (start : Span) (lists : List AttributeList) (words : List Modifier) :
    Traced (Option MethodDecl) := do
  let before ← get
  match ← attempt type with
  | none =>
    set before
    skipMember
    return none
  | some returnType =>
    if !(← atIdent) || (← atWord "operator") || (← atWord "this") then
      skipMember
      return none
    let (name, nameSpan, parameters) ← memberName
    if !(← atMark .leftParen) then
      skipMember
      return none
    skipBalanced
    skipUntil [.leftBrace, .arrow, .semicolon, .rightBrace]
    let body ← methodBody
    return some ⟨← spanFrom start, lists, words, returnType, name, nameSpan, parameters, body⟩

def typeHead : Traced (List String) := do
  let parameters ← if ← atMark .less then typeParameters else pure []
  if ← atMark .leftParen then skipBalanced
  skipUntil [.leftBrace, .semicolon, .rightBrace]
  return parameters

end Methods

section Erasure

@[simp] theorem parser_lift (parser : Parser α) : (liftM parser : Traced α).parser = parser := rfl

@[simp] theorem parser_get : (get : Traced Cursor).parser = get := rfl

@[simp] theorem parser_set (cursor : Cursor) :
    (set cursor : Traced PUnit).parser = set cursor := rfl

@[simp] theorem parser_read : (read : Traced SourceFile).parser = read := rfl

@[simp] theorem parser_pure (value : α) : (pure value : Traced α).parser = pure value := rfl

@[simp] theorem parser_bind (first : Traced α) (next : α → Traced β) :
    (first >>= next).parser = first.parser >>= fun value => (next value).parser := rfl

theorem rounds_bind (first : Traced α) (next : α → Traced β) (file : SourceFile) (here : Cursor) :
    (first >>= next).rounds file here = first.rounds file here ++
      match first.parser file here with
      | .ok value later => (next value).rounds file later
      | .error _ _ => [] := rfl

@[simp] theorem parser_ite {condition : Prop} [Decidable condition] (first second : Traced α) :
    (if condition then first else second).parser =
      if condition then first.parser else second.parser := by
  split <;> rfl

@[simp] theorem parser_attempt (traced : Traced α) :
    (attempt traced).parser = Parser.attempt traced.parser := rfl

@[simp] theorem parser_orElse (traced : Traced α) (recover : Diagnostic → Traced α) :
    (orElse traced recover).parser =
      Parser.orElse traced.parser fun diagnostic => (recover diagnostic).parser := rfl

theorem parser_loopWithin (kind : LoopKind) (step : σ → Traced (ForInStep σ)) (rounds : Nat)
    (state : σ) :
    (loopWithin kind step rounds state).parser =
      Parser.loopWithin (fun state => (step state).parser) rounds state := by
  induction rounds generalizing state with
  | zero => rfl
  | succ rounds ih =>
      refine bind_congr fun outcome => ?_
      cases outcome with
      | done result => rfl
      | yield next => exact ih next

@[simp] theorem parser_loop (kind : LoopKind) (state : σ) (step : σ → Traced (ForInStep σ)) :
    (loop kind state step).parser = Parser.loop state fun state => (step state).parser :=
  bind_congr fun _ => parser_loopWithin kind step _ state

@[simp] theorem parser_skipBy (action : TokenKind → SkipAction) :
    (skipBy action).parser = Parser.skipBy action := parser_loop ..

@[simp] theorem parser_skipUntil (marks : List Mark) :
    (skipUntil marks).parser = Parser.skipUntil marks := by
  rw [skipUntil, parser_skipBy, skipUntil_eq]

@[simp] theorem parser_skipStatement : skipStatement.parser = Parser.skipStatement := by
  rw [skipStatement, parser_skipBy, skipStatement_eq]

@[simp] theorem parser_skipMember : skipMember.parser = Parser.skipMember := by
  rw [skipMember, parser_skipBy, skipMember_eq]

@[simp] theorem parser_recoverFrom (before : Nat) :
    (recoverFrom before).parser = Parser.recoverFrom before := by
  simp only [recoverFrom, Parser.recoverFrom, parser_bind, parser_get, parser_ite, parser_lift,
    parser_skipMember]

section Types

variable (type : Traced TypeExpr)

theorem parser_argumentRound (found : List TypeExpr) :
    (argumentRound type found).parser = Parser.argumentRound type.parser found := by
  refine bind_congr fun argument => ?_
  cases argument with
  | none => rfl
  | some argument => simp only [parser_bind, parser_lift, parser_ite, parser_pure]

@[simp] theorem parser_typeArguments :
    (typeArguments type).parser = Parser.typeArguments type.parser := by
  have rounds := funext (parser_argumentRound type)
  simp only [typeArguments, parser_bind, parser_get, parser_lift, parser_loop, rounds, parser_ite,
    parser_set, parser_pure]
  rfl

theorem parser_segmentRound (found : List NameSegment) :
    (segmentRound type found).parser = Parser.segmentRound type.parser found := by
  simp only [segmentRound, Parser.segmentRound, parser_bind, parser_lift, parser_ite,
    parser_typeArguments, parser_pure]

@[simp] theorem parser_namedType (start : Span) :
    (namedType type start).parser = Parser.namedType type.parser start := by
  have rounds := funext (parser_segmentRound type)
  simp only [namedType, Parser.namedType, parser_bind, parser_lift, parser_ite, parser_pure,
    parser_loop, rounds]
  rfl

theorem parser_elementRound (found : List TupleElement) :
    (elementRound type found).parser = Parser.elementRound type.parser found := by
  simp only [elementRound, Parser.elementRound, parser_bind, parser_lift, parser_ite, parser_pure]

@[simp] theorem parser_tupleType (start : Span) :
    (tupleType type start).parser = Parser.tupleType type.parser start := by
  have rounds := funext (parser_elementRound type)
  simp only [tupleType, parser_bind, parser_lift, parser_loop, rounds, parser_pure]
  rfl

theorem parser_suffixRound (start : Span) (head : TypeExpr) :
    (suffixRound start head).parser = Parser.suffixRound start head := by
  simp only [suffixRound, Parser.suffixRound, parser_bind, parser_lift, parser_ite, parser_pure,
    parser_loop]

@[simp] theorem parser_typeSuffixes (start : Span) (head : TypeExpr) :
    (typeSuffixes start head).parser = Parser.typeSuffixes start head := by
  rw [typeSuffixes, parser_loop, funext (parser_suffixRound start)]
  rfl

@[simp] theorem parser_typeWithin (depth : Nat) :
    (typeWithin depth).parser = Parser.typeWithin depth := by
  induction depth with
  | zero => rfl
  | succ depth ih =>
      refine bind_congr fun start => bind_congr fun paren => ?_
      rw [parser_ite]
      refine ite_congr rfl (fun _ => ?_) fun _ => bind_congr fun name => ?_
      · simp only [parser_bind, parser_tupleType, ih, parser_typeSuffixes]
      · cases name with
        | none => rfl
        | some name =>
            simp only [parser_ite, parser_bind, parser_lift, parser_typeSuffixes, parser_namedType,
              ih]

@[simp] theorem parser_type : Traced.type.parser = Parser.type := by
  simp only [Traced.type, Parser.type, parser_bind, parser_get, parser_typeWithin]

end Types

section Attributes

@[simp] theorem parser_argumentTokens : argumentTokens.parser = Parser.argumentTokens := by
  simp only [argumentTokens, argumentTokens_eq, parser_bind, parser_get, parser_skipBy, parser_pure]

@[simp] theorem parser_attributeArgument : attributeArgument.parser = Parser.attributeArgument := by
  simp only [attributeArgument, Parser.attributeArgument, parser_bind, parser_lift, parser_read,
    parser_argumentTokens, parser_ite, parser_pure]

theorem parser_itemRound (close : Mark) (item : Traced α) (found : List α) :
    (itemRound close item found).parser = Parser.itemRound close item.parser found := by
  simp only [itemRound, Parser.itemRound, parser_bind, parser_lift, parser_ite, parser_pure]

@[simp] theorem parser_listUpTo (close : Mark) (item : Traced α) :
    (listUpTo close item).parser = Parser.listUpTo close item.parser := by
  have rounds := funext (parser_itemRound close item)
  simp only [listUpTo, parser_bind, parser_loop, rounds, parser_lift, parser_pure]
  rfl

@[simp] theorem parser_dottedName : dottedName.parser = Parser.dottedName := by
  simp only [dottedName, parser_bind, parser_lift, parser_loop]
  rfl

@[simp] theorem parser_appliedAttribute : appliedAttribute.parser = Parser.appliedAttribute := by
  simp only [appliedAttribute, Parser.appliedAttribute, parser_bind, parser_lift, parser_ite,
    parser_pure, parser_dottedName, parser_typeArguments, parser_type, parser_listUpTo,
    parser_attributeArgument]

@[simp] theorem parser_attributeList : attributeList.parser = Parser.attributeList := by
  simp only [attributeList, Parser.attributeList, parser_bind, parser_lift, parser_listUpTo,
    parser_appliedAttribute, parser_pure]

theorem parser_listRound (found : List AttributeList) :
    (listRound found).parser = Parser.listRound found := by
  simp only [listRound, Parser.listRound, parser_bind, parser_lift, parser_ite, parser_pure,
    parser_attributeList]

@[simp] theorem parser_attributeLists : attributeLists.parser = Parser.attributeLists := by
  rw [attributeLists, parser_loop, funext parser_listRound]
  rfl

end Attributes

section Methods

@[simp] theorem parser_modifiers : modifiers.parser = Parser.modifiers := by
  rw [modifiers, parser_loop]
  rfl

theorem parser_parameterRound (found : List String) :
    (parameterRound found).parser = Parser.parameterRound found := by
  simp only [parameterRound, Parser.parameterRound, parser_bind, parser_lift, parser_ite,
    parser_pure, parser_attributeLists]

@[simp] theorem parser_typeParameters : typeParameters.parser = Parser.typeParameters := by
  simp only [typeParameters, typeParameters_eq, parser_bind, parser_lift, parser_loop,
    funext parser_parameterRound, parser_pure]

@[simp] theorem parser_qualifiedName : qualifiedName.parser = Parser.qualifiedName := by
  simp only [qualifiedName, Parser.qualifiedName, parser_bind, parser_dottedName, parser_pure]

@[simp] theorem parser_usingDirective (start : Span) (isGlobal : Bool) :
    (usingDirective start isGlobal).parser = Parser.usingDirective start isGlobal := by
  simp only [usingDirective, Parser.usingDirective, parser_bind, parser_lift, parser_ite,
    parser_pure, parser_type, parser_qualifiedName]

theorem parser_nameRound (found : String × Span × List String) :
    (nameRound found).parser = Parser.nameRound found := by
  simp only [nameRound, Parser.nameRound, parametersIfAny, bind_assoc, pure_bind, ite_bind,
    parser_bind, parser_lift, parser_ite, parser_pure, parser_typeParameters]

@[simp] theorem parser_memberName : memberName.parser = Parser.memberName := by
  simp only [memberName, memberName_eq, parser_bind, parser_lift, parser_loop,
    funext parser_nameRound]

@[simp] theorem parser_methodBody : methodBody.parser = Parser.methodBody := by
  simp only [methodBody, Parser.methodBody, parser_bind, parser_lift, parser_ite, parser_pure,
    parser_skipStatement]

@[simp] theorem parser_method? (start : Span) (lists : List AttributeList) (words : List Modifier) :
    (method? start lists words).parser = Parser.method? start lists words := by
  refine bind_congr fun before => ?_
  rw [parser_bind, parser_attempt, parser_type]
  refine bind_congr fun type => ?_
  cases type with
  | none => simp only [parser_bind, parser_set, parser_skipMember, parser_pure]
  | some type =>
      simp only [parser_bind, parser_lift, parser_ite, parser_pure, parser_skipMember,
        parser_memberName, parser_skipUntil, parser_methodBody]

@[simp] theorem parser_typeHead : typeHead.parser = Parser.typeHead := by
  simp only [typeHead, Parser.typeHead, parser_bind, parser_lift, parser_ite, parser_pure,
    parser_typeParameters, parser_skipUntil]

end Methods

end Erasure

end Traced

end ErrorAccessors.Parser
