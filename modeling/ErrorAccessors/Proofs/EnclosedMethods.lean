/-
# Methods and what is around them

The methods of a file are listed twice.  The contract is checked in source order,
where the methods of a nested type stand between those of the type around it, and
nothing around a method is looked at.  Sites are collected type by type, outer types
before nested ones, each with the scope it stands in.  Both lists hold the same
methods, each as often as it is declared.

Here the methods are listed in source order with the names of all namespaces and
types around them.  Forgetting the names leaves the first list, and making sites from
the names gives the second one, in another order: its namespace is joined from the
names of the namespaces around, and its full name from those and the names of all
types around.
-/

import ErrorAccessors.Proofs.SiteLookup
import Mathlib.Data.List.Induction

namespace ErrorAccessors

namespace Text

/-- A name that is joined already may be joined with further parts. -/
theorem joinDotted_joined_cons (front behind : List String) :
    joinDotted (joinDotted front :: behind) = joinDotted (front ++ behind) := by
  induction behind using List.reverseRecOn with
  | nil =>
      rw [List.append_nil]
      have alone := joinDotted_append_singleton [] (joinDotted front)
      have nothing : joinDotted [] = "" := rfl
      rw [List.nil_append, if_pos nothing, nothing] at alone
      rw [alone]
      split
      · next empty => exact empty.symm
      · rfl
  | append_singleton behind last ih =>
      rw [← List.cons_append, ← List.append_assoc, joinDotted_append_singleton,
        joinDotted_append_singleton, ih]

end Text

/-- A method declaration with the names of what is around it. -/
structure EnclosedMethod where
  /-- The names of the namespace declarations around, outermost first. -/
  spaces : List String
  /-- The names of the types around the type of the method, outermost first. -/
  outer : List String
  /-- The name of the type that declares the method. -/
  typeName : String
  method : MethodDecl

/-- The site of a method, by the names of what is around it. -/
def EnclosedMethod.site (enclosed : EnclosedMethod) : MarkedSite where
  qualifiedId := Text.joinDotted (enclosed.spaces ++ [enclosed.typeName, enclosed.method.name])
  space := Text.joinDotted enclosed.spaces
  typeName := enclosed.typeName
  fullName := Text.joinDotted (enclosed.spaces ++ enclosed.outer ++ [enclosed.typeName])
  method := enclosed.method.name
  span := enclosed.method.nameSpan

mutual

/-- The methods of a type and of the types nested in it, in source order. -/
def TypeDecl.enclosed (spaces outer : List String) : TypeDecl → List EnclosedMethod
  | ⟨_, _, name, _, _, _, _, members⟩ => TypeMember.enclosedOfList spaces outer name members

/-- The methods among members of a type. -/
def TypeMember.enclosedOfList (spaces outer : List String) (typeName : String) :
    List TypeMember → List EnclosedMethod
  | [] => []
  | .method decl :: rest =>
    ⟨spaces, outer, typeName, decl⟩ :: TypeMember.enclosedOfList spaces outer typeName rest
  | .type decl :: rest =>
    decl.enclosed spaces (outer ++ [typeName]) ++
      TypeMember.enclosedOfList spaces outer typeName rest

end

mutual

/-- The methods declared in a namespace, in source order. -/
def NamespaceDecl.enclosed (spaces : List String) : NamespaceDecl → List EnclosedMethod
  | ⟨_, name, _, _, members⟩ => NamespaceMember.enclosedOfList (spaces ++ [name]) members

/-- The methods among members of a namespace. -/
def NamespaceMember.enclosedOfList (spaces : List String) :
    List NamespaceMember → List EnclosedMethod
  | [] => []
  | .space decl :: rest => decl.enclosed spaces ++ NamespaceMember.enclosedOfList spaces rest
  | .type decl :: rest => decl.enclosed spaces [] ++ NamespaceMember.enclosedOfList spaces rest

end

/-- Every method of a file with what is around it, in source order. -/
def SourceUnit.enclosedMethods (unit : SourceUnit) : List EnclosedMethod :=
  NamespaceMember.enclosedOfList [] unit.members

section SourceOrder

mutual

theorem TypeDecl.map_method_enclosed (spaces outer : List String) (decl : TypeDecl) :
    (decl.enclosed spaces outer).map (·.method) = decl.methods := by
  obtain ⟨span, kind, name, nameSpan, typeParameters, lists, modifiers, members⟩ := decl
  rw [TypeDecl.enclosed, TypeDecl.methods]
  exact TypeMember.map_method_enclosedOfList spaces outer name members

theorem TypeMember.map_method_enclosedOfList (spaces outer : List String) (typeName : String)
    (members : List TypeMember) :
    (TypeMember.enclosedOfList spaces outer typeName members).map (·.method) =
      TypeMember.methodsOfList members := by
  match members with
  | [] => rfl
  | .method decl :: rest =>
      rw [TypeMember.enclosedOfList, TypeMember.methodsOfList, List.map_cons,
        TypeMember.map_method_enclosedOfList spaces outer typeName rest]
  | .type decl :: rest =>
      rw [TypeMember.enclosedOfList, TypeMember.methodsOfList, List.map_append,
        decl.map_method_enclosed, TypeMember.map_method_enclosedOfList spaces outer typeName rest]

end

mutual

theorem NamespaceDecl.map_method_enclosed (spaces : List String) (decl : NamespaceDecl) :
    (decl.enclosed spaces).map (·.method) = decl.methods := by
  obtain ⟨span, name, isFileScoped, usings, members⟩ := decl
  rw [NamespaceDecl.enclosed, NamespaceDecl.methods]
  exact NamespaceMember.map_method_enclosedOfList (spaces ++ [name]) members

theorem NamespaceMember.map_method_enclosedOfList (spaces : List String)
    (members : List NamespaceMember) :
    (NamespaceMember.enclosedOfList spaces members).map (·.method) =
      NamespaceMember.methodsOfList members := by
  match members with
  | [] => rfl
  | .space decl :: rest =>
      rw [NamespaceMember.enclosedOfList, NamespaceMember.methodsOfList, List.map_append,
        decl.map_method_enclosed, NamespaceMember.map_method_enclosedOfList spaces rest]
  | .type decl :: rest =>
      rw [NamespaceMember.enclosedOfList, NamespaceMember.methodsOfList, List.map_append,
        decl.map_method_enclosed, NamespaceMember.map_method_enclosedOfList spaces rest]

end

/-- Without what is around them, these are the methods of the file in source order. -/
theorem SourceUnit.map_method_enclosedMethods (unit : SourceUnit) :
    unit.enclosedMethods.map (·.method) = unit.methods :=
  NamespaceMember.map_method_enclosedOfList [] unit.members

end SourceOrder

section Visited

/-- A method with the site that it gets if it is marked. -/
def EnclosedMethod.sited (enclosed : EnclosedMethod) : MarkedSite × MethodDecl :=
  (enclosed.site, enclosed.method)

/-- A method with the site that it gets if it is marked. -/
def PlacedMethod.sited (placed : PlacedMethod) : MarkedSite × MethodDecl :=
  (placed.site, placed.method)

/-- A scope with the names of the namespaces and types around it. -/
structure Scope.IsWithin (scope : Scope) (spaces outer : List String) : Prop where
  space : scope.space = Text.joinDotted spaces
  containers : scope.containers = outer

section Within

variable {scope : Scope} {spaces outer : List String}

theorem Scope.IsWithin.enterType (within : scope.IsWithin spaces outer) (name : String)
    (typeParameters : List String) :
    (scope.enterType name typeParameters).IsWithin spaces (outer ++ [name]) :=
  ⟨within.space, congrArg (· ++ [name]) within.containers⟩

theorem Scope.IsWithin.enterNamespace (within : scope.IsWithin spaces []) (name : String)
    (usings : List UsingDirective) :
    (scope.enterNamespace name usings).IsWithin (spaces ++ [name]) [] where
  space := by
    show Text.joinDotted [scope.space, name] = _
    rw [within.space, Text.joinDotted_joined_cons]
  containers := within.containers

/-- A method of a type gets the same site from the scope of the type and from the names
around the type. -/
theorem Scope.IsWithin.sited (within : scope.IsWithin spaces outer) (decl : TypeDecl)
    (method : MethodDecl) :
    PlacedMethod.sited ⟨⟨decl, scope⟩, method⟩ =
      EnclosedMethod.sited ⟨spaces, outer, decl.name, method⟩ := by
  have fullName : (ScopedType.mk decl scope).fullName =
      Text.joinDotted (spaces ++ outer ++ [decl.name]) := by
    rw [ScopedType.fullName, Scope.qualify, within.space, within.containers, List.cons_append,
      Text.joinDotted_joined_cons, List.append_assoc]
  simp only [PlacedMethod.sited, EnclosedMethod.sited, PlacedMethod.site, ScopedType.siteOf,
    EnclosedMethod.site, fullName, within.space, Text.joinDotted_joined_cons]

end Within

/-- The methods that types declare directly, type by type. -/
private def sitedOf (types : List ScopedType) : List (MarkedSite × MethodDecl) :=
  (types.flatMap PlacedMethod.ofType).map PlacedMethod.sited

private theorem sitedOf_cons (type : ScopedType) (more : List ScopedType) :
    sitedOf (type :: more) = (PlacedMethod.ofType type).map PlacedMethod.sited ++ sitedOf more := by
  rw [sitedOf, List.flatMap_cons, List.map_append]
  rfl

private theorem sitedOf_append (types more : List ScopedType) :
    sitedOf (types ++ more) = sitedOf types ++ sitedOf more := by
  rw [sitedOf, List.flatMap_append, List.map_append]
  rfl

mutual

theorem TypeDecl.sited_perm {scope : Scope} {spaces outer : List String}
    (within : scope.IsWithin spaces outer) (decl : TypeDecl) :
    (sitedOf (decl.scoped scope)).Perm
      ((decl.enclosed spaces outer).map EnclosedMethod.sited) := by
  obtain ⟨span, kind, name, nameSpan, typeParameters, lists, modifiers, members⟩ := decl
  let decl : TypeDecl :=
    ⟨span, kind, name, nameSpan, typeParameters, lists, modifiers, members⟩
  have own : (PlacedMethod.ofType ⟨decl, scope⟩).map PlacedMethod.sited =
      decl.ownMethods.map fun method => EnclosedMethod.sited ⟨spaces, outer, name, method⟩ := by
    rw [PlacedMethod.ofType, List.map_map]
    exact List.map_congr_left fun method _ => within.sited decl method
  rw [TypeDecl.scoped, TypeDecl.enclosed, sitedOf_cons, own]
  exact TypeMember.sited_perm decl (within.enterType name typeParameters) members

/-- The methods of a type stand in front of those of the types nested in it when they are
visited, and between them in the source. -/
theorem TypeMember.sited_perm {scope : Scope} {spaces outer : List String} (decl : TypeDecl)
    (within : scope.IsWithin spaces (outer ++ [decl.name])) (members : List TypeMember) :
    ((TypeDecl.ownMethods { decl with members := members }).map
          (fun method => EnclosedMethod.sited ⟨spaces, outer, decl.name, method⟩) ++
        sitedOf (TypeMember.scopedOfList scope members)).Perm
      ((TypeMember.enclosedOfList spaces outer decl.name members).map EnclosedMethod.sited) := by
  match members with
  | [] => exact .refl _
  | .method method :: rest =>
      rw [TypeMember.scopedOfList, TypeMember.enclosedOfList, List.map_cons]
      exact (TypeMember.sited_perm decl within rest).cons _
  | .type nested :: rest =>
      rw [TypeMember.scopedOfList, TypeMember.enclosedOfList, List.map_append, sitedOf_append]
      exact (List.perm_append_comm_assoc _ _ _).trans
        ((nested.sited_perm within).append (TypeMember.sited_perm decl within rest))

end

mutual

theorem NamespaceDecl.sited_perm {scope : Scope} {spaces : List String}
    (within : scope.IsWithin spaces []) (decl : NamespaceDecl) :
    (sitedOf (decl.scoped scope)).Perm ((decl.enclosed spaces).map EnclosedMethod.sited) := by
  obtain ⟨span, name, isFileScoped, usings, members⟩ := decl
  rw [NamespaceDecl.scoped, NamespaceDecl.enclosed]
  exact NamespaceMember.sited_perm (within.enterNamespace name usings) members

theorem NamespaceMember.sited_perm {scope : Scope} {spaces : List String}
    (within : scope.IsWithin spaces []) (members : List NamespaceMember) :
    (sitedOf (NamespaceMember.scopedOfList scope members)).Perm
      ((NamespaceMember.enclosedOfList spaces members).map EnclosedMethod.sited) := by
  match members with
  | [] => exact .refl _
  | .space decl :: rest =>
      rw [NamespaceMember.scopedOfList, NamespaceMember.enclosedOfList, List.map_append,
        sitedOf_append]
      exact (decl.sited_perm within).append (NamespaceMember.sited_perm within rest)
  | .type decl :: rest =>
      rw [NamespaceMember.scopedOfList, NamespaceMember.enclosedOfList, List.map_append,
        sitedOf_append]
      exact (decl.sited_perm within).append (NamespaceMember.sited_perm within rest)

end

variable (unit : SourceUnit)

/-- Visiting a file type by type gives every method the site that it has by its names. -/
theorem SourceUnit.sited_perm :
    ((unit.types.flatMap PlacedMethod.ofType).map PlacedMethod.sited).Perm
      (unit.enclosedMethods.map EnclosedMethod.sited) :=
  NamespaceMember.sited_perm ⟨rfl, rfl⟩ unit.members

/-- Visiting a file type by type meets every method as often as it is declared. -/
theorem SourceUnit.placed_perm :
    ((unit.types.flatMap PlacedMethod.ofType).map (·.method)).Perm unit.methods := by
  have visited := unit.sited_perm.map Prod.snd
  rw [List.map_map, List.map_map] at visited
  rw [← unit.map_method_enclosedMethods]
  exact visited

/-- The marked methods among the methods of a file, in source order, and the sites of the
file correspond one to one.  The site of a method carries its name and the span of its
name, the dotted names of all namespaces around it, the name of the nearest type around
it, and the full name that is joined from all namespaces and types around it. -/
theorem SourceUnit.sites_perm_marked (marker : Marker) :
    unit.enclosedMethods.map (·.method) = unit.methods ∧
      (unit.sites marker).Perm
        ((unit.enclosedMethods.filter fun enclosed => enclosed.method.isMarked marker).map
          EnclosedMethod.site) := by
  refine ⟨unit.map_method_enclosedMethods, ?_⟩
  have marked := (unit.sited_perm.filter fun sited => sited.2.isMarked marker).map Prod.fst
  rw [List.filter_map, List.filter_map, List.map_map, List.map_map] at marked
  have sites := PlacedMethod.map_site_ofUnits marker [unit]
  rw [PlacedMethod.ofUnits, List.flatMap_singleton, List.flatMap_singleton] at sites
  rw [← sites]
  exact marked

end Visited

end ErrorAccessors
