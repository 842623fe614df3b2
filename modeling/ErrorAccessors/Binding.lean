/-
# Binding types to declarations

A written type is bound in a scope against the types that the sources declare.
Names are looked up in the order that the scope gives; the first declared full
name wins, and a name that is declared nowhere keeps its spelling.  A plain name
may also be a type parameter or an alias.  The target of an alias is bound
without aliases in scope, so that aliases cannot run in circles.
-/

import ErrorAccessors.BoundType
import ErrorAccessors.Parser.Declaration
import ErrorAccessors.Scope

namespace ErrorAccessors

/-- The head of a declared type. -/
structure DeclaredType where
  name : String
  /-- The full dotted namespace, empty outside every namespace. -/
  space : String
  /-- The types around it, outermost first. -/
  containers : List String
  fullName : String
  kind : TypeKind
  typeParameters : List String
deriving DecidableEq, Repr, Inhabited

namespace DeclaredType

/-- The head of a type declaration in its scope. -/
def ofScoped (type : ScopedType) : DeclaredType where
  name := type.decl.name
  space := type.scope.space
  containers := type.scope.containers
  fullName := type.fullName
  kind := type.decl.kind
  typeParameters := type.decl.typeParameters

/-- A text, unless it is empty. -/
def nonempty? (text : String) : Option String :=
  if text = "" then none else some text

/-- A reference to a declared type with type arguments. -/
def reference (type : DeclaredType) (arguments : List BoundType) : BoundType :=
  { BoundType.simple type.name with
    space := nonempty? type.space
    container := nonempty? (".".intercalate type.containers)
    arguments }

end DeclaredType

/-- A part of a dotted name whose type arguments are bound. -/
structure BoundSegment where
  name : String
  arguments : List BoundType

namespace BoundSegment

/-- The spelling of a part of a qualifier. -/
def text (segment : BoundSegment) : String :=
  if segment.arguments.isEmpty then segment.name
  else segment.name ++ "<" ++ BoundType.renderList [] segment.arguments ++ ">"

/-- The type that a dotted name keeps when nothing of that name is declared. -/
def asWritten (qualifier : Option String) (before : List BoundSegment) (last : BoundSegment) :
    BoundType :=
  let written := ".".intercalate (before.map text)
  let name :=
    match qualifier with
    | some word => if written = "" then word ++ "::" ++ last.name else last.name
    | none => last.name
  let space :=
    if written = "" then none
    else
      match qualifier with
      | some word => some (word ++ "::" ++ written)
      | none => some written
  { BoundType.simple name with space, arguments := last.arguments }

/-- The declared type that a dotted name means, if any.  A qualified name is
looked up by its full name alone. -/
def declared? (types : List DeclaredType) (scope : Scope) (qualifier : Option String)
    (segments : List BoundSegment) : Option DeclaredType :=
  let dotted := Text.joinDotted (segments.map (·.name))
  let names :=
    match qualifier with
    | some _ => [dotted]
    | none => scope.candidates dotted
  names.findSome? fun name => types.find? fun type => type.fullName == name

/-- The meaning of a plain name as a type parameter or an alias. -/
def plain? (scope : Scope) (expandAlias : String → Option BoundType) (qualifier : Option String) :
    List BoundSegment → Option BoundType
  | [⟨name, []⟩] =>
    if qualifier.isSome then none
    else if scope.typeParameters.contains name then some (.parameter name)
    else expandAlias name
  | _ => none

/-- The type that a dotted name means. -/
def resolve (types : List DeclaredType) (scope : Scope) (expandAlias : String → Option BoundType)
    (qualifier : Option String) (segments : List BoundSegment) : BoundType :=
  match segments.getLast? with
  | none => .simple ""
  | some last =>
    match plain? scope expandAlias qualifier segments with
    | some type => type
    | none =>
      match declared? types scope qualifier segments with
      | some type => type.reference last.arguments
      | none => asWritten qualifier segments.dropLast last

end BoundSegment

mutual

/-- Bind a type, given what aliases stand for. -/
def TypeExpr.bindWith (types : List DeclaredType) (scope : Scope)
    (expandAlias : String → Option BoundType) : TypeExpr → BoundType
  | .predefined keyword _ => .simple keyword
  | .nullable inner _ => (inner.bindWith types scope expandAlias).withSuffix "?"
  | .pointer inner _ => (inner.bindWith types scope expandAlias).withSuffix "*"
  | .array element rank _ =>
    (element.bindWith types scope expandAlias).withSuffix (TypeExpr.arraySuffix rank)
  | .tuple elements _ => .tuple (TupleElement.bindList types scope expandAlias elements)
  | .named qualifier segments _ =>
    BoundSegment.resolve types scope expandAlias qualifier
      (NameSegment.bindList types scope expandAlias segments)

/-- Bind a list of types. -/
def TypeExpr.bindList (types : List DeclaredType) (scope : Scope)
    (expandAlias : String → Option BoundType) : List TypeExpr → List BoundType
  | [] => []
  | type :: rest =>
    type.bindWith types scope expandAlias :: TypeExpr.bindList types scope expandAlias rest

/-- Bind the type arguments in the parts of a name. -/
def NameSegment.bindList (types : List DeclaredType) (scope : Scope)
    (expandAlias : String → Option BoundType) : List NameSegment → List BoundSegment
  | [] => []
  | ⟨name, arguments⟩ :: rest =>
    ⟨name, TypeExpr.bindList types scope expandAlias arguments⟩ ::
      NameSegment.bindList types scope expandAlias rest

/-- Bind the elements of a tuple type. -/
def TupleElement.bindList (types : List DeclaredType) (scope : Scope)
    (expandAlias : String → Option BoundType) : List TupleElement → List BoundElement
  | [] => []
  | ⟨type, name⟩ :: rest =>
    ⟨type.bindWith types scope expandAlias, name⟩ ::
      TupleElement.bindList types scope expandAlias rest

end

/-- The type that an alias in scope stands for.  A target that is no type is
ignored. -/
def Scope.expandAlias (scope : Scope) (types : List DeclaredType) (name : String) :
    Option BoundType :=
  (scope.aliasTarget? name).bind fun target =>
    match TypeExpr.parse target with
    | .ok type => some (type.bindWith types scope.forAliasTargets fun _ => none)
    | .error _ => none

/-- Bind a type in a scope. -/
def TypeExpr.bind (type : TypeExpr) (types : List DeclaredType) (scope : Scope) : BoundType :=
  type.bindWith types scope (scope.expandAlias types)

end ErrorAccessors
