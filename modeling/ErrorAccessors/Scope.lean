/-
# Scopes

Where a declaration stands: its namespace, the types around it, the using
directives it sees and the type parameters it may name.  A scope gives every
type declaration its full name, and it lists the full names that a written name
may mean, nearest first.
-/

import ErrorAccessors.Declaration
import ErrorAccessors.Text.Split

namespace ErrorAccessors

/-- The surroundings of a declaration. -/
structure Scope where
  /-- The full dotted namespace, empty outside every namespace. -/
  space : String := ""
  /-- The types around the declaration, outermost first. -/
  containers : List String := []
  usings : List UsingDirective := []
  typeParameters : List String := []
deriving DecidableEq, Repr, Inhabited

/-- Add directives behind others, leaving out those whose text is there
already. -/
def UsingDirective.addNew (directives more : List UsingDirective) : List UsingDirective :=
  more.foldl
    (fun kept directive =>
      if kept.any fun earlier => earlier.text == directive.text then kept
      else kept ++ [directive])
    directives

namespace Scope

/-- The scope of the members of a namespace. -/
def enterNamespace (scope : Scope) (name : String) (usings : List UsingDirective) : Scope :=
  { scope with
    space := Text.joinDotted [scope.space, name]
    usings := UsingDirective.addNew scope.usings usings }

/-- The scope of the members of a type. -/
def enterType (scope : Scope) (name : String) (typeParameters : List String) : Scope :=
  { scope with
    containers := scope.containers ++ [name]
    typeParameters := scope.typeParameters ++ typeParameters }

/-- The scope with further type parameters. -/
def withTypeParameters (scope : Scope) (typeParameters : List String) : Scope :=
  { scope with typeParameters := scope.typeParameters ++ typeParameters }

/-- The full name of something declared in a scope. -/
def qualify (scope : Scope) (name : String) : String :=
  Text.joinDotted (scope.space :: scope.containers ++ [name])

/-- The type that an alias in scope stands for; the first alias of a name
counts. -/
def aliasTarget? (scope : Scope) (name : String) : Option String :=
  scope.usings.findSome? fun directive =>
    match directive.kind with
    | .ofAlias introduced target => if introduced == name then some target else none
    | _ => none

/-- The scope in which the target of an alias is read: without aliases and
without type parameters. -/
def forAliasTargets (scope : Scope) : Scope :=
  { scope with
    usings := scope.usings.filter fun directive =>
      match directive.kind with
      | .ofAlias _ _ => false
      | _ => true
    typeParameters := [] }

/-- All beginnings of a list, longest first, the whole list included. -/
def beginnings {α : Type} (items : List α) : List (List α) :=
  (List.range (items.length + 1)).reverse.map fun length => items.take length

/-- The namespaces that using directives bring into scope. -/
def usedNamespaces (scope : Scope) : List String :=
  scope.usings.filterMap fun directive =>
    match directive.kind with
    | .ofNamespace name => some name
    | _ => none

/-- The full names that a written name may mean, in the order of lookup: in the
types around, from the innermost, then in the namespaces around, then in the
namespaces that are used. -/
def candidates (scope : Scope) (name : String) : List String :=
  let inTypes := (beginnings scope.containers).filter fun containers => containers ≠ []
  inTypes.map (fun containers => Text.joinDotted (scope.space :: containers ++ [name])) ++
    (beginnings (Text.dottedParts scope.space)).map
      (fun parts => Text.joinDotted (parts ++ [name])) ++
    scope.usedNamespaces.map fun space => Text.joinDotted [space, name]

end Scope

/-- A type declaration together with the scope it stands in. -/
structure ScopedType where
  decl : TypeDecl
  scope : Scope

/-- The full name of a scoped type declaration. -/
def ScopedType.fullName (type : ScopedType) : String :=
  type.scope.qualify type.decl.name

mutual

/-- A type declaration and the types nested in it, each with its scope; outer
types come before nested ones. -/
def TypeDecl.scoped (scope : Scope) : TypeDecl → List ScopedType
  | ⟨span, kind, name, nameSpan, typeParameters, attributeLists, modifiers, members⟩ =>
    ⟨⟨span, kind, name, nameSpan, typeParameters, attributeLists, modifiers, members⟩, scope⟩ ::
      TypeMember.scopedOfList (scope.enterType name typeParameters) members

/-- The types among members of a type. -/
def TypeMember.scopedOfList (scope : Scope) : List TypeMember → List ScopedType
  | [] => []
  | .type decl :: rest => decl.scoped scope ++ TypeMember.scopedOfList scope rest
  | .method _ :: rest => TypeMember.scopedOfList scope rest

end

mutual

/-- The types declared in a namespace. -/
def NamespaceDecl.scoped (scope : Scope) : NamespaceDecl → List ScopedType
  | ⟨_, name, _, usings, members⟩ =>
    NamespaceMember.scopedOfList (scope.enterNamespace name usings) members

/-- The types among members of a namespace. -/
def NamespaceMember.scopedOfList (scope : Scope) : List NamespaceMember → List ScopedType
  | [] => []
  | .space decl :: rest => decl.scoped scope ++ NamespaceMember.scopedOfList scope rest
  | .type decl :: rest => decl.scoped scope ++ NamespaceMember.scopedOfList scope rest

end

/-- Every type declaration of a file with its scope, in source order. -/
def SourceUnit.types (unit : SourceUnit) : List ScopedType :=
  NamespaceMember.scopedOfList { usings := unit.usings } unit.members

/-- The methods declared directly in a type. -/
def TypeDecl.ownMethods (decl : TypeDecl) : List MethodDecl :=
  decl.members.filterMap fun member =>
    match member with
    | .method method => some method
    | .type _ => none

end ErrorAccessors
