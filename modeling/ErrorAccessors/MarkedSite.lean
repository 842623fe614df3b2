/-
# Marked methods

A marked method is one that carries the marker attribute.  Finding them needs
no binding: a site records where the method stands and which type declares it.
Across the files of a project a qualified name is taken once, by the first
method that has it.
-/

import ErrorAccessors.Scope
import ErrorAccessors.Settings

namespace ErrorAccessors

/-- A marked method with the names by which it is reported and looked up. -/
structure MarkedSite where
  /-- Namespace, type and method, separated by dots. -/
  qualifiedId : String
  /-- The full dotted namespace, empty outside every namespace. -/
  space : String
  /-- The name of the type that declares the method. -/
  typeName : String
  /-- The full name of that type. -/
  fullName : String
  method : String
  /-- The span of the method's name. -/
  span : Span
deriving DecidableEq, Repr, Inhabited

/-- Whether a method carries the marker. -/
def MethodDecl.isMarked (method : MethodDecl) (marker : Marker) : Bool :=
  method.attributes.any fun applied => marker.accepts applied.simpleName

/-- The site of a method that is declared in a type. -/
def ScopedType.siteOf (type : ScopedType) (method : MethodDecl) : MarkedSite where
  qualifiedId := Text.joinDotted [type.scope.space, type.decl.name, method.name]
  space := type.scope.space
  typeName := type.decl.name
  fullName := type.fullName
  method := method.name
  span := method.nameSpan

/-- The sites of the marked methods declared directly in a type. -/
def ScopedType.sites (type : ScopedType) (marker : Marker) : List MarkedSite :=
  (type.decl.ownMethods.filter fun method => method.isMarked marker).map type.siteOf

/-- The sites of a file, those of a type before those of the types nested in
it. -/
def SourceUnit.sites (unit : SourceUnit) (marker : Marker) : List MarkedSite :=
  unit.types.flatMap fun type => type.sites marker

namespace MarkedSite

/-- Keep the first site of every qualified name. -/
def distinct (sites : List MarkedSite) : List MarkedSite :=
  sites.foldl
    (fun kept site =>
      if kept.any fun earlier => earlier.qualifiedId == site.qualifiedId then kept
      else kept ++ [site])
    []

/-- The sites of all files. -/
def ofUnits (marker : Marker) (units : List SourceUnit) : List MarkedSite :=
  distinct (units.flatMap fun unit => unit.sites marker)

end MarkedSite

end ErrorAccessors
