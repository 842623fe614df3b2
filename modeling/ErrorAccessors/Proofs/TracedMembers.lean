/-
# The rounds in which members are read

Members are read in the rounds of loops, and a member may be a type or a namespace
whose own members are read in the rounds of a loop within the round.  What stands in front
of the members and what is read of each goes through rounds of its own.

The readers of types, namespaces and whole files are traced here.  Without the rounds
they are the readers themselves.
-/

import ErrorAccessors.Proofs.ProperOutline
import ErrorAccessors.Proofs.TracedReading

namespace ErrorAccessors.Parser

namespace Traced

variable {α σ : Type}

/-- Reading a member, or skipping one that cannot be read. -/
def memberOrRecovery (member : Traced (Option α)) (before : Nat) : Traced (Option α) :=
  orElse member fun diagnostic => do
    record diagnostic
    recoverFrom before
    return none

/-- One round of going through members. -/
def memberRound (atStop : Parser Bool) (member : Traced (Option α)) (add : σ → α → σ)
    (state : σ) : Traced (ForInStep σ) := do
  if ← atStop then return .done state
  else if ← skipFault then return .yield state
  else
    let before := (← get).remaining.length
    let read ← memberOrRecovery member before
    stepIfStuck before
    return .yield (addIfAny add state read)

def memberLoop (atStop : Parser Bool) (member : Traced (Option α)) (add : σ → α → σ) (state : σ) :
    Traced σ :=
  loop .ofMembers state (memberRound atStop member add)

/-- A member of a type. -/
def typeMember (nested : Span → List AttributeList → List Modifier → Traced TypeDecl) :
    Traced (Option TypeMember) := do
  let start ← nextSpan
  if ← eat .semicolon then return none
  let lists ← attributeLists
  let words ← modifiers
  if ← atTypeKeyword then return some (.type (← nested start lists words))
  if ← atSkippedMember then
    skipMember
    return none
  return (← method? start lists words).map .method

/-- The members of a type. -/
def typeBody (kind : TypeKind) (start : Span) (member : Traced (Option TypeMember)) :
    Traced (List TypeMember) := do
  if ← eat .semicolon then return []
  let members ←
    if kind = .enumType then do
      unless ← atMark .leftBrace do
        failExpecting "`\x7b`"
      skipBalanced
      pure []
    else do
      expect .leftBrace
      let members ← memberLoop atBodyEnd member (fun found member => found ++ [member]) []
      closeDeclaration start
      pure members
  let _ ← eat .semicolon
  return members

/-- A type declaration whose types nest less than a depth. -/
def typeDeclWithin : Nat → Span → List AttributeList → List Modifier → Traced TypeDecl
  | 0, _, _, _ => breakOff .ofMembers (failExpecting "type")
  | depth + 1, start, lists, words => do
    let kind ← typeKind
    let (name, nameSpan) ← expectIdent
    let parameters ← typeHead
    let members ← typeBody kind start (typeMember (typeDeclWithin depth))
    return ⟨← spanFrom start, kind, name, nameSpan, parameters, lists, words, members⟩

/-- An item of a namespace. -/
def namespaceItem (inner : Span → Traced NamespaceDecl) : Traced (Option NamespaceItem) := do
  let start ← nextSpan
  if (← atWord "global") && ((← peekSecond).any fun kind => kind.isWord "using") then
    advance
    return some (.directive (← usingDirective start true))
  if ← atUsingDirective then return some (.directive (← usingDirective start false))
  if ← eat .semicolon then return none
  let lists ← attributeLists
  if ← atWord "namespace" then return some (.member (.space (← inner start)))
  let words ← modifiers
  if ← atTypeKeyword then
    let depth := (← get).remaining.length + 1
    return some (.member (.type (← typeDeclWithin depth start lists words)))
  skipMember
  return none

/-- The items of a namespace. -/
def namespaceBody (isBraced : Bool) (inner : Span → Traced NamespaceDecl) : Traced NamespaceBody :=
  if isBraced then
    memberLoop atBodyEnd (namespaceItem inner) NamespaceBody.add ⟨[], []⟩
  else
    memberLoop atEnd
      (do if ← skipStrayBrace then return none else namespaceItem inner)
      NamespaceBody.add ⟨[], []⟩

/-- A namespace declaration whose namespaces nest less than a depth. -/
def namespaceDeclWithin : Nat → Span → Traced NamespaceDecl
  | 0, _ => breakOff .ofMembers (failExpecting "declaration")
  | depth + 1, start => do
    advance
    let name ← qualifiedName
    if ← eat .semicolon then
      let body ← namespaceBody false (namespaceDeclWithin depth)
      return ⟨← spanFrom start, name, true, body.usings, body.members⟩
    else
      expect .leftBrace
      let body ← namespaceBody true (namespaceDeclWithin depth)
      closeDeclaration start
      let _ ← eat .semicolon
      return ⟨← spanFrom start, name, false, body.usings, body.members⟩

/-- The items of a whole file. -/
def fileBody : Traced NamespaceBody := do
  let depth := (← get).remaining.length + 1
  namespaceBody false (namespaceDeclWithin depth)

section Erasure

@[simp] theorem parser_memberOrRecovery (member : Traced (Option α)) (before : Nat) :
    (memberOrRecovery member before).parser = Parser.memberOrRecovery member.parser before := by
  simp only [memberOrRecovery, Parser.memberOrRecovery, parser_orElse, parser_bind, parser_lift,
    parser_recoverFrom, parser_pure]

theorem parser_memberRound (atStop : Parser Bool) (member : Traced (Option α)) (add : σ → α → σ)
    (state : σ) :
    (memberRound atStop member add state).parser =
      Parser.memberRound atStop member.parser add state := by
  simp only [memberRound, memberRound_eq, parser_bind, parser_lift, parser_pure, parser_ite,
    parser_get, parser_memberOrRecovery]

theorem parser_memberLoop (atStop : Parser Bool) (member : Traced (Option α)) (add : σ → α → σ)
    (state : σ) :
    (memberLoop atStop member add state).parser =
      Parser.memberLoop atStop member.parser add state := by
  rw [memberLoop, parser_loop]
  exact congrArg (Parser.loop state) (funext (parser_memberRound atStop member add))

theorem parser_typeMember (nested : Span → List AttributeList → List Modifier → Traced TypeDecl) :
    (typeMember nested).parser =
      Parser.typeMember fun start lists words => (nested start lists words).parser := by
  simp only [typeMember, Parser.typeMember, parser_bind, parser_lift, parser_pure, parser_ite,
    parser_attributeLists, parser_modifiers, parser_skipMember, parser_method?]

theorem parser_typeBody (kind : TypeKind) (start : Span) (member : Traced (Option TypeMember)) :
    (typeBody kind start member).parser = Parser.typeBody kind start member.parser := by
  simp only [typeBody, Parser.typeBody, parser_bind, parser_lift, parser_pure, parser_ite,
    parser_memberLoop]

theorem parser_typeDeclWithin (depth : Nat) (start : Span) (lists : List AttributeList)
    (words : List Modifier) :
    (typeDeclWithin depth start lists words).parser =
      Parser.typeDeclWithin depth start lists words := by
  induction depth generalizing start lists words with
  | zero => rfl
  | succ depth ih =>
      simp only [typeDeclWithin, Parser.typeDeclWithin, parser_bind, parser_lift, parser_pure,
        parser_typeHead, parser_typeBody, parser_typeMember, ih]

theorem parser_namespaceItem (inner : Span → Traced NamespaceDecl) :
    (namespaceItem inner).parser = Parser.namespaceItem fun start => (inner start).parser := by
  simp only [namespaceItem, Parser.namespaceItem, parser_bind, parser_lift, parser_pure, parser_ite,
    parser_get, parser_usingDirective, parser_attributeLists, parser_modifiers,
    parser_typeDeclWithin, parser_skipMember]

theorem parser_namespaceBody (isBraced : Bool) (inner : Span → Traced NamespaceDecl) :
    (namespaceBody isBraced inner).parser =
      Parser.namespaceBody isBraced fun start => (inner start).parser := by
  simp only [namespaceBody, Parser.namespaceBody, parser_bind, parser_lift, parser_pure, parser_ite,
    parser_memberLoop, parser_namespaceItem]

theorem parser_namespaceDeclWithin (depth : Nat) (start : Span) :
    (namespaceDeclWithin depth start).parser = Parser.namespaceDeclWithin depth start := by
  induction depth generalizing start with
  | zero => rfl
  | succ depth ih =>
      simp only [namespaceDeclWithin, Parser.namespaceDeclWithin, parser_bind, parser_lift,
        parser_pure, parser_ite, parser_qualifiedName, parser_namespaceBody, ih]

theorem parser_fileBody : fileBody.parser = Parser.fileBody := by
  simp only [fileBody, Parser.fileBody, parser_bind, parser_get, parser_namespaceBody,
    parser_namespaceDeclWithin]

end Erasure

end Traced

end ErrorAccessors.Parser
