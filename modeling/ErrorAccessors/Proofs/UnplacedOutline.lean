/-
# Outlines, apart from where

Two outlines that differ only in places hold the same declarations.  As for
types and attributes, every span is replaced by one and the same, so that
holding the same declarations is equality.  The path of a file stays.

What is left of a method is a parameter, because some methods of an outline may
be given another return type while everything else stays as it is.
-/

import ErrorAccessors.Proofs.Unplaced

namespace ErrorAccessors

/-- A modifier without its place. -/
def Modifier.unplaced (modifier : Modifier) : Modifier :=
  { modifier with span := .nowhere }

/-- Apart from their places, modifiers are their keywords. -/
theorem Modifier.map_unplaced {words others : List Modifier}
    (same : words.map (·.keyword) = others.map (·.keyword)) :
    words.map Modifier.unplaced = others.map Modifier.unplaced := by
  have keyword (words : List Modifier) : words.map Modifier.unplaced =
      (words.map (·.keyword)).map fun keyword => ⟨keyword, .nowhere⟩ := by
    rw [List.map_map]
    rfl
  rw [keyword, keyword, same]

/-- A using directive without its place. -/
def UsingDirective.unplaced (directive : UsingDirective) : UsingDirective :=
  { directive with span := .nowhere }

/-- A method without its places. -/
def MethodDecl.unplaced (method : MethodDecl) : MethodDecl where
  span := .nowhere
  attributeLists := method.attributeLists.map AttributeList.unplaced
  modifiers := method.modifiers.map Modifier.unplaced
  returnType := method.returnType.unplaced
  name := method.name
  nameSpan := .nowhere
  typeParameters := method.typeParameters
  body := method.body

/-- Which methods are given another return type, and which one. -/
abbrev Exchange := MethodDecl → Option TypeExpr

/-- A method with the return type that it is given. -/
def MethodDecl.exchanged (exchange : Exchange) (method : MethodDecl) : MethodDecl :=
  { method with returnType := (exchange method).getD method.returnType }

section Outlines

variable (left : MethodDecl → MethodDecl)

mutual

/-- A type declaration without its places, given what is left of a method. -/
def TypeDecl.unplacedWith : TypeDecl → TypeDecl
  | ⟨_, kind, name, _, typeParameters, lists, modifiers, members⟩ =>
    ⟨.nowhere, kind, name, .nowhere, typeParameters, lists.map AttributeList.unplaced,
      modifiers.map Modifier.unplaced, TypeMember.unplacedListWith members⟩

/-- Members of a type without their places. -/
def TypeMember.unplacedListWith : List TypeMember → List TypeMember
  | [] => []
  | .method decl :: rest => .method (left decl) :: TypeMember.unplacedListWith rest
  | .type decl :: rest => .type decl.unplacedWith :: TypeMember.unplacedListWith rest

end

/-- A member of a type without its places. -/
def TypeMember.unplacedWith : TypeMember → TypeMember
  | .method decl => .method (left decl)
  | .type decl => .type (decl.unplacedWith left)

mutual

/-- A namespace without its places, given what is left of a method. -/
def NamespaceDecl.unplacedWith : NamespaceDecl → NamespaceDecl
  | ⟨_, name, isFileScoped, usings, members⟩ =>
    ⟨.nowhere, name, isFileScoped, usings.map UsingDirective.unplaced,
      NamespaceMember.unplacedListWith members⟩

/-- Members of a namespace without their places. -/
def NamespaceMember.unplacedListWith : List NamespaceMember → List NamespaceMember
  | [] => []
  | .space decl :: rest => .space decl.unplacedWith :: NamespaceMember.unplacedListWith rest
  | .type decl :: rest => .type (decl.unplacedWith left) :: NamespaceMember.unplacedListWith rest

end

/-- A member of a namespace without its places. -/
def NamespaceMember.unplacedWith : NamespaceMember → NamespaceMember
  | .space decl => .space (decl.unplacedWith left)
  | .type decl => .type (decl.unplacedWith left)

/-- The outline of a file without its places, given what is left of a method. -/
def SourceUnit.unplacedWith (unit : SourceUnit) : SourceUnit where
  path := unit.path
  span := .nowhere
  usings := unit.usings.map UsingDirective.unplaced
  members := NamespaceMember.unplacedListWith left unit.members

/-- The outline of a file without its places. -/
def SourceUnit.unplaced (unit : SourceUnit) : SourceUnit :=
  unit.unplacedWith MethodDecl.unplaced

theorem TypeMember.unplacedListWith_eq_map (members : List TypeMember) :
    TypeMember.unplacedListWith left members = members.map (TypeMember.unplacedWith left) := by
  induction members with
  | nil => rfl
  | cons member rest ih =>
      cases member with
      | method decl => rw [TypeMember.unplacedListWith, ih, List.map_cons, TypeMember.unplacedWith]
      | type decl => rw [TypeMember.unplacedListWith, ih, List.map_cons, TypeMember.unplacedWith]

theorem NamespaceMember.unplacedListWith_eq_map (members : List NamespaceMember) :
    NamespaceMember.unplacedListWith left members =
      members.map (NamespaceMember.unplacedWith left) := by
  induction members with
  | nil => rfl
  | cons member rest ih =>
      cases member with
      | space decl =>
          rw [NamespaceMember.unplacedListWith, ih, List.map_cons, NamespaceMember.unplacedWith]
      | type decl =>
          rw [NamespaceMember.unplacedListWith, ih, List.map_cons, NamespaceMember.unplacedWith]

mutual

/-- The methods of a declaration without places are what is left of its
methods. -/
theorem TypeDecl.methods_unplacedWith (decl : TypeDecl) :
    (decl.unplacedWith left).methods = decl.methods.map left := by
  obtain ⟨span, kind, name, nameSpan, typeParameters, lists, modifiers, members⟩ := decl
  rw [TypeDecl.unplacedWith, TypeDecl.methods, TypeDecl.methods]
  exact TypeMember.methodsOfList_unplacedWith members

theorem TypeMember.methodsOfList_unplacedWith : ∀ members : List TypeMember,
    TypeMember.methodsOfList (TypeMember.unplacedListWith left members) =
      (TypeMember.methodsOfList members).map left
  | [] => rfl
  | .method decl :: rest => by
      have later := TypeMember.methodsOfList_unplacedWith rest
      rw [TypeMember.unplacedListWith, TypeMember.methodsOfList, TypeMember.methodsOfList, later,
        List.map_cons]
  | .type decl :: rest => by
      have first := TypeDecl.methods_unplacedWith decl
      have later := TypeMember.methodsOfList_unplacedWith rest
      rw [TypeMember.unplacedListWith, TypeMember.methodsOfList, TypeMember.methodsOfList, first,
        later, List.map_append]

end

mutual

theorem NamespaceDecl.methods_unplacedWith (decl : NamespaceDecl) :
    (decl.unplacedWith left).methods = decl.methods.map left := by
  obtain ⟨span, name, isFileScoped, usings, members⟩ := decl
  rw [NamespaceDecl.unplacedWith, NamespaceDecl.methods, NamespaceDecl.methods]
  exact NamespaceMember.methodsOfList_unplacedWith members

theorem NamespaceMember.methodsOfList_unplacedWith : ∀ members : List NamespaceMember,
    NamespaceMember.methodsOfList (NamespaceMember.unplacedListWith left members) =
      (NamespaceMember.methodsOfList members).map left
  | [] => rfl
  | .space decl :: rest => by
      have first := NamespaceDecl.methods_unplacedWith decl
      have later := NamespaceMember.methodsOfList_unplacedWith rest
      rw [NamespaceMember.unplacedListWith, NamespaceMember.methodsOfList,
        NamespaceMember.methodsOfList, first, later, List.map_append]
  | .type decl :: rest => by
      have first := TypeDecl.methods_unplacedWith left decl
      have later := NamespaceMember.methodsOfList_unplacedWith rest
      rw [NamespaceMember.unplacedListWith, NamespaceMember.methodsOfList,
        NamespaceMember.methodsOfList, first, later, List.map_append]

end

theorem TypeMember.methodsOfList_append (first second : List TypeMember) :
    TypeMember.methodsOfList (first ++ second) =
      TypeMember.methodsOfList first ++ TypeMember.methodsOfList second := by
  induction first with
  | nil => rfl
  | cons member rest ih =>
      cases member with
      | method decl =>
          rw [List.cons_append, TypeMember.methodsOfList, ih, TypeMember.methodsOfList,
            List.cons_append]
      | type decl =>
          rw [List.cons_append, TypeMember.methodsOfList, ih, TypeMember.methodsOfList,
            List.append_assoc]

theorem NamespaceMember.methodsOfList_append (first second : List NamespaceMember) :
    NamespaceMember.methodsOfList (first ++ second) =
      NamespaceMember.methodsOfList first ++ NamespaceMember.methodsOfList second := by
  induction first with
  | nil => rfl
  | cons member rest ih =>
      cases member with
      | space decl =>
          rw [List.cons_append, NamespaceMember.methodsOfList, ih, NamespaceMember.methodsOfList,
            List.append_assoc]
      | type decl =>
          rw [List.cons_append, NamespaceMember.methodsOfList, ih, NamespaceMember.methodsOfList,
            List.append_assoc]

theorem SourceUnit.methods_unplacedWith (unit : SourceUnit) :
    (unit.unplacedWith left).methods = unit.methods.map left :=
  NamespaceMember.methodsOfList_unplacedWith left unit.members

end Outlines

end ErrorAccessors
