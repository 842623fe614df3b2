/-
# Repairing return types

A return type outside the result grammar is replaced by the nearest one inside:
`void` becomes the result type, any other type becomes its argument, and the
same happens under the wrapper of an asynchronous method.  The new type is
written out and read again, so that the edit holds the canonical spelling, and
only the span of the return type is replaced.
-/

import ErrorAccessors.Grammar
import ErrorAccessors.Parser.Declaration
import ErrorAccessors.Source.Edit

namespace ErrorAccessors

/-- Why there is no repair. -/
inductive RepairError where
  | cancelled
  | noMethod (offset : Nat)
  | unparsable (text : String)
  | alreadyValid
deriving DecidableEq, Repr, Inhabited

/-- What is said about a missing repair. -/
def RepairError.message : RepairError → String
  | cancelled => "fix cancelled"
  | noMethod offset => "no method declaration encloses offset " ++ toString offset
  | unparsable text => "corrected return type `" ++ text ++ "` does not parse"
  | alreadyValid => "return type already has a Result shape"

/-- The parts of a dotted name, where the last one goes without its type
arguments. -/
def NameSegment.headTexts : List NameSegment → List String
  | [] => []
  | [last] => [last.name]
  | segment :: next :: rest => segment.text :: NameSegment.headTexts (next :: rest)

/-- The spelling of a type without the type arguments of its last part. -/
def TypeExpr.headText (type : TypeExpr) : String :=
  match type with
  | .named qualifier (segment :: rest) _ =>
    let dotted := ".".intercalate (NameSegment.headTexts (segment :: rest))
    match qualifier with
    | some name => name ++ "::" ++ dotted
    | none => dotted
  | _ => type.text

namespace ResultGrammar

/-- The wrapper that a type has, as it is written, and the type that the result
has to carry. -/
def takeApart (grammar : ResultGrammar) (type : TypeExpr) : Option String × Option TypeExpr :=
  match grammar.unwrap? type with
  | some inner => (some type.headText, some inner)
  | none =>
    if grammar.isUnitWrapper type then (some type.headText, none)
    else if type.isVoid then (none, none)
    else (none, some type)

/-- The result type that carries a type; one that is a result already stays as
it is. -/
def resultOf (grammar : ResultGrammar) : Option TypeExpr → String
  | none => grammar.resultType
  | some type =>
    if grammar.isResult type then type.text else grammar.resultType ++ "<" ++ type.text ++ ">"

/-- The nearest return type inside the grammar. -/
def corrected (grammar : ResultGrammar) (type : TypeExpr) (isAsync : Bool) : String :=
  let (wrapper, carried) := grammar.takeApart type
  let result := grammar.resultOf carried
  match wrapper.or (if isAsync then some grammar.defaultWrapper else none) with
  | some name => name ++ "<" ++ result ++ ">"
  | none => result

end ResultGrammar

namespace MethodDecl

/-- The nearest return type of a method inside the grammar. -/
def correctedReturnType (method : MethodDecl) (grammar : ResultGrammar) : String :=
  grammar.corrected method.returnType method.isAsync

/-- The edit that repairs the return type of a method. -/
def repair (method : MethodDecl) (grammar : ResultGrammar) : Except RepairError Edit :=
  if grammar.conforms method.returnType method.isAsync then .error .alreadyValid
  else
    let text := method.correctedReturnType grammar
    match TypeExpr.parse text with
    | .ok type => .ok ⟨method.returnType.span, type.text⟩
    | .error _ => .error (.unparsable text)

end MethodDecl

/-- The text of a file after edits of its own declarations, which never cut a
character. -/
def Edit.applied (source : String) (edits : List Edit) : String :=
  (Edit.applyAll? source edits).getD source

namespace SourceUnit

/-- The edit that repairs the method around an offset, unless the repair has
been cancelled. -/
def repairAt (unit : SourceUnit) (grammar : ResultGrammar) (cancelled : Bool) (offset : Nat) :
    Except RepairError Edit :=
  if cancelled then .error .cancelled
  else
    match unit.methodAt? offset with
    | none => .error (.noMethod offset)
    | some method => method.repair grammar

/-- The edits that repair the methods around some offsets.  Valid methods need
none. -/
def repairs (unit : SourceUnit) (grammar : ResultGrammar) (cancelled : Bool) :
    List Nat → Except RepairError (List Edit)
  | [] => if cancelled then .error .cancelled else .ok []
  | offset :: offsets =>
    match unit.repairAt grammar cancelled offset with
    | .ok edit => (edit :: ·) <$> unit.repairs grammar cancelled offsets
    | .error .alreadyValid => unit.repairs grammar cancelled offsets
    | .error error => .error error

/-- The text of a file with the method around an offset repaired. -/
def repairedAt (unit : SourceUnit) (grammar : ResultGrammar) (source : String)
    (cancelled : Bool) (offset : Nat) : Except RepairError String := do
  let edit ← unit.repairAt grammar cancelled offset
  return Edit.applied source [edit]

/-- The text of a file with the methods around some offsets repaired. -/
def repaired (unit : SourceUnit) (grammar : ResultGrammar) (source : String) (cancelled : Bool)
    (offsets : List Nat) : Except RepairError String := do
  let edits ← unit.repairs grammar cancelled offsets
  return Edit.applied source edits

end SourceUnit

end ErrorAccessors
