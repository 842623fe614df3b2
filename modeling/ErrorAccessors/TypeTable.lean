/-
# The types that a set of sources declares

Partial declarations of one full name are merged into one symbol: the first
declaration gives its head, and all of them give their methods, in the order in
which the sources declare them.  All heads are known before any return type is
bound, so that a type may be used before it is declared and across files.
-/

import ErrorAccessors.Binding

namespace ErrorAccessors

/-- An attribute as a symbol carries it. -/
structure AppliedAttribute where
  /-- The last part of the name as written. -/
  name : String
  /-- The arguments in source order; those passed by name carry it. -/
  arguments : List (Option String × AttributeValue)
  span : Span
deriving DecidableEq, Repr, Inhabited

namespace AppliedAttribute

/-- The attribute that stands at a declaration. -/
def ofAttribute (applied : Attribute) : AppliedAttribute where
  name := applied.simpleName
  arguments := applied.arguments.map fun argument => (argument.name, argument.value)
  span := applied.span

/-- The argument for a parameter: the first one passed by its name, or else the
one at its place if that is not passed by name. -/
def argument? (applied : AppliedAttribute) (place : Nat) (parameter : String) :
    Option AttributeValue :=
  match applied.arguments.find? fun argument => argument.1 == some parameter with
  | some argument => some argument.2
  | none =>
    match applied.arguments[place]? with
    | some (none, value) => some value
    | _ => none

/-- The integer argument for a parameter. -/
def intArgument? (applied : AppliedAttribute) (place : Nat) (parameter : String) : Option Int :=
  match applied.argument? place parameter with
  | some (.int value) => some value
  | _ => none

/-- The string argument for a parameter. -/
def strArgument? (applied : AppliedAttribute) (place : Nat) (parameter : String) :
    Option String :=
  match applied.argument? place parameter with
  | some (.str value) => some value
  | _ => none

end AppliedAttribute

/-- A method with its bound return type. -/
structure MethodSymbol where
  name : String
  isAsync : Bool
  typeParameters : List String
  returnType : BoundType
  returnExpr : TypeExpr
  attributes : List AppliedAttribute
  /-- The using directives seen at the declaration. -/
  imports : List UsingDirective
  span : Span
  nameSpan : Span

/-- A declared type with the methods of all its declarations. -/
structure TypeSymbol extends DeclaredType where
  methods : List MethodSymbol

/-- The symbol of a method, where `inner` is the scope of the members of its
type and `imports` are the directives that the type sees. -/
def MethodDecl.toSymbol (method : MethodDecl) (types : List DeclaredType) (inner : Scope)
    (imports : List UsingDirective) : MethodSymbol where
  name := method.name
  isAsync := method.isAsync
  typeParameters := method.typeParameters
  returnType := method.returnType.bind types (inner.withTypeParameters method.typeParameters)
  returnExpr := method.returnType
  attributes := method.attributes.map AppliedAttribute.ofAttribute
  imports := imports
  span := method.span
  nameSpan := method.nameSpan

/-- The symbols of the methods declared directly in a type. -/
def ScopedType.methodSymbols (type : ScopedType) (types : List DeclaredType) :
    List MethodSymbol :=
  let inner := type.scope.enterType type.decl.name type.decl.typeParameters
  type.decl.ownMethods.map fun method => method.toSymbol types inner type.scope.usings

/-- The declared types of a set of sources. -/
structure TypeTable where
  units : List SourceUnit
  types : List TypeSymbol

namespace TypeTable

/-- The heads of declarations, one for every full name. -/
def heads (declared : List ScopedType) : List DeclaredType :=
  declared.foldl
    (fun kept type =>
      if kept.any fun earlier => earlier.fullName == type.fullName then kept
      else kept ++ [.ofScoped type])
    []

/-- The table of the types that parsed sources declare. -/
def ofUnits (units : List SourceUnit) : TypeTable :=
  let declared := units.flatMap SourceUnit.types
  let known := heads declared
  let symbol (head : DeclaredType) : TypeSymbol :=
    { head with
      methods :=
        (declared.filter fun type => type.fullName == head.fullName).flatMap fun type =>
          type.methodSymbols known }
  ⟨units, known.map symbol⟩

/-- The symbol of a full name. -/
def find? (table : TypeTable) (fullName : String) : Option TypeSymbol :=
  table.types.find? fun type => type.fullName == fullName

/-- The heads of all types of a table. -/
def declared (table : TypeTable) : List DeclaredType :=
  table.types.map TypeSymbol.toDeclaredType

end TypeTable

/-- Parse sources given as path and text.  The diagnostics of all sources that
cannot be read are returned together. -/
def SourceUnit.parseAll (sources : List (String × String)) :
    Except (List Diagnostic) (List SourceUnit) :=
  let parsed := sources.map fun (path, text) => SourceUnit.parse text path
  let diagnostics := parsed.flatMap fun result =>
    match result with
    | .ok _ => []
    | .error diagnostics => diagnostics
  if Diagnostic.anyError diagnostics then .error diagnostics
  else .ok (parsed.filterMap Except.toOption)

end ErrorAccessors
