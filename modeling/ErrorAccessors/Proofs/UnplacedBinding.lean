/-
# Binding does not look at places

A bound type holds no place, and neither what binds it does: of the scope only
the type parameters and the candidates for a name count, and of a using
directive only what it brings into scope.  So a type without its places means in
a scope without places what the type meant in the scope.
-/

import ErrorAccessors.Proofs.BindingLaws
import ErrorAccessors.Proofs.TypeText
import ErrorAccessors.Proofs.UnplacedOutline

namespace ErrorAccessors

/-- A scope whose using directives have no places. -/
def Scope.unplaced (scope : Scope) : Scope :=
  { scope with usings := scope.usings.map UsingDirective.unplaced }

/-- A scoped type declaration without its places, given what is left of a
method. -/
def ScopedType.unplacedWith (left : MethodDecl → MethodDecl) (type : ScopedType) : ScopedType :=
  ⟨type.decl.unplacedWith left, type.scope.unplaced⟩

section Idempotent

theorem UsingDirective.unplaced_unplaced (directive : UsingDirective) :
    directive.unplaced.unplaced = directive.unplaced := rfl

@[simp] theorem Scope.unplaced_unplaced (scope : Scope) :
    scope.unplaced.unplaced = scope.unplaced := by
  simp only [unplaced, List.map_map]
  rfl

mutual

theorem TypeExpr.unplaced_unplaced (type : TypeExpr) : type.unplaced.unplaced = type.unplaced := by
  cases type with
  | predefined keyword span => rfl
  | nullable inner span => rw [TypeExpr.unplaced, TypeExpr.unplaced, inner.unplaced_unplaced]
  | pointer inner span => rw [TypeExpr.unplaced, TypeExpr.unplaced, inner.unplaced_unplaced]
  | array element rank span => rw [TypeExpr.unplaced, TypeExpr.unplaced, element.unplaced_unplaced]
  | tuple elements span =>
      rw [TypeExpr.unplaced, TypeExpr.unplaced, TupleElement.unplacedList_unplacedList elements]
  | named qualifier segments span =>
      rw [TypeExpr.unplaced, TypeExpr.unplaced, NameSegment.unplacedList_unplacedList segments]

theorem TypeExpr.unplacedList_unplacedList (types : List TypeExpr) :
    TypeExpr.unplacedList (TypeExpr.unplacedList types) = TypeExpr.unplacedList types := by
  match types with
  | [] => rfl
  | type :: rest =>
      rw [TypeExpr.unplacedList, TypeExpr.unplacedList, type.unplaced_unplaced,
        TypeExpr.unplacedList_unplacedList rest]

theorem NameSegment.unplacedList_unplacedList (segments : List NameSegment) :
    NameSegment.unplacedList (NameSegment.unplacedList segments) =
      NameSegment.unplacedList segments := by
  match segments with
  | [] => rfl
  | ⟨name, arguments⟩ :: rest =>
      rw [NameSegment.unplacedList, NameSegment.unplacedList,
        TypeExpr.unplacedList_unplacedList arguments, NameSegment.unplacedList_unplacedList rest]

theorem TupleElement.unplacedList_unplacedList (elements : List TupleElement) :
    TupleElement.unplacedList (TupleElement.unplacedList elements) =
      TupleElement.unplacedList elements := by
  match elements with
  | [] => rfl
  | ⟨type, name⟩ :: rest =>
      rw [TupleElement.unplacedList, TupleElement.unplacedList, type.unplaced_unplaced,
        TupleElement.unplacedList_unplacedList rest]

end

end Idempotent

namespace Scope

variable (scope : Scope)

@[simp] theorem unplaced_usedNamespaces : scope.unplaced.usedNamespaces = scope.usedNamespaces := by
  rw [usedNamespaces, unplaced, List.filterMap_map]
  rfl

@[simp] theorem unplaced_candidates (name : String) :
    scope.unplaced.candidates name = scope.candidates name := by
  rw [candidates, candidates, unplaced_usedNamespaces]
  rfl

@[simp] theorem unplaced_aliasTarget? (name : String) :
    scope.unplaced.aliasTarget? name = scope.aliasTarget? name := by
  rw [aliasTarget?, unplaced, List.findSome?_map]
  rfl

theorem unplaced_forAliasTargets :
    scope.unplaced.forAliasTargets = scope.forAliasTargets.unplaced := by
  simp only [forAliasTargets, unplaced, List.filter_map]
  rfl

theorem unplaced_enterType (name : String) (typeParameters : List String) :
    scope.unplaced.enterType name typeParameters = (scope.enterType name typeParameters).unplaced :=
  rfl

end Scope

/-- Directives are told apart by their text, which has no place. -/
theorem UsingDirective.addNew_unplaced (directives more : List UsingDirective) :
    addNew (directives.map unplaced) (more.map unplaced) =
      (addNew directives more).map unplaced := by
  induction more generalizing directives with
  | nil => rfl
  | cons directive rest ih =>
      have isNew : (directives.map unplaced).any (fun earlier =>
            earlier.text == directive.unplaced.text) =
          directives.any fun earlier => earlier.text == directive.text := by
        rw [List.any_map]
        rfl
      simp only [addNew, List.map_cons, List.foldl_cons, isNew] at ih ⊢
      split
      · exact ih directives
      · rw [← ih (directives ++ [directive]), List.map_append, List.map_singleton]

theorem Scope.unplaced_enterNamespace (scope : Scope) (name : String)
    (usings : List UsingDirective) :
    scope.unplaced.enterNamespace name (usings.map UsingDirective.unplaced) =
      (scope.enterNamespace name usings).unplaced := by
  simp only [enterNamespace, unplaced, UsingDirective.addNew_unplaced]

section Binding

variable (types : List DeclaredType) (scope : Scope) (expandAlias : String → Option BoundType)

theorem BoundSegment.resolve_unplaced (qualifier : Option String) (segments : List BoundSegment) :
    resolve types scope.unplaced expandAlias qualifier segments =
      resolve types scope expandAlias qualifier segments := by
  have declared : declared? types scope.unplaced qualifier segments =
      declared? types scope qualifier segments := by
    simp only [declared?, Scope.unplaced_candidates]
  have plain : plain? scope.unplaced expandAlias qualifier segments =
      plain? scope expandAlias qualifier segments := by
    unfold plain?
    rfl
  rw [resolve, resolve, declared, plain]

mutual

theorem TypeExpr.bindWith_unplaced (type : TypeExpr) :
    type.unplaced.bindWith types scope.unplaced expandAlias =
      type.bindWith types scope expandAlias := by
  cases type with
  | predefined keyword span => rfl
  | nullable inner span =>
      rw [TypeExpr.unplaced_nullable, TypeExpr.bindWith_nullable, TypeExpr.bindWith_nullable,
        inner.bindWith_unplaced]
  | pointer inner span =>
      rw [TypeExpr.unplaced_pointer, TypeExpr.bindWith_pointer, TypeExpr.bindWith_pointer,
        inner.bindWith_unplaced]
  | array element rank span =>
      rw [TypeExpr.unplaced_array, TypeExpr.bindWith_array, TypeExpr.bindWith_array,
        element.bindWith_unplaced]
  | tuple elements span =>
      unfold TypeExpr.unplaced TypeExpr.bindWith
      rw [TupleElement.bindList_unplaced elements]
  | named qualifier segments span =>
      unfold TypeExpr.unplaced TypeExpr.bindWith
      rw [NameSegment.bindList_unplaced segments, BoundSegment.resolve_unplaced]

theorem TypeExpr.bindList_unplaced (list : List TypeExpr) :
    TypeExpr.bindList types scope.unplaced expandAlias (TypeExpr.unplacedList list) =
      TypeExpr.bindList types scope expandAlias list := by
  match list with
  | [] => rfl
  | type :: rest =>
      rw [TypeExpr.unplacedList, TypeExpr.bindList, TypeExpr.bindList, type.bindWith_unplaced,
        TypeExpr.bindList_unplaced rest]

theorem NameSegment.bindList_unplaced (segments : List NameSegment) :
    NameSegment.bindList types scope.unplaced expandAlias (NameSegment.unplacedList segments) =
      NameSegment.bindList types scope expandAlias segments := by
  match segments with
  | [] => rfl
  | ⟨name, arguments⟩ :: rest =>
      rw [NameSegment.unplacedList, NameSegment.bindList, NameSegment.bindList,
        TypeExpr.bindList_unplaced arguments, NameSegment.bindList_unplaced rest]

theorem TupleElement.bindList_unplaced (elements : List TupleElement) :
    TupleElement.bindList types scope.unplaced expandAlias (TupleElement.unplacedList elements) =
      TupleElement.bindList types scope expandAlias elements := by
  match elements with
  | [] => rfl
  | ⟨type, name⟩ :: rest =>
      rw [TupleElement.unplacedList, TupleElement.bindList, TupleElement.bindList,
        type.bindWith_unplaced, TupleElement.bindList_unplaced rest]

end

/-- A type means the same in a scope without places. -/
theorem TypeExpr.bindWith_unplaced_scope (type : TypeExpr) :
    type.bindWith types scope.unplaced expandAlias = type.bindWith types scope expandAlias := by
  rw [← bindWith_unplaced types scope.unplaced, Scope.unplaced_unplaced, bindWith_unplaced]

theorem Scope.unplaced_expandAlias :
    scope.unplaced.expandAlias types = scope.expandAlias types := by
  funext name
  simp only [expandAlias, unplaced_aliasTarget?, unplaced_forAliasTargets,
    TypeExpr.bindWith_unplaced_scope]

theorem TypeExpr.bind_unplaced (type : TypeExpr) :
    type.unplaced.bind types scope.unplaced = type.bind types scope := by
  rw [bind, bind, Scope.unplaced_expandAlias, bindWith_unplaced]

/-- Types that differ only in places mean the same. -/
theorem TypeExpr.bind_eq_of_unplaced_eq {type other : TypeExpr}
    (same : type.unplaced = other.unplaced) : type.bind types scope = other.bind types scope := by
  rw [← bind_unplaced, same, bind_unplaced]

end Binding

section Scoped

variable (left : MethodDecl → MethodDecl)

mutual

/-- The types of a declaration without places are its types without places. -/
theorem TypeDecl.scoped_unplacedWith (scope : Scope) (decl : TypeDecl) :
    (decl.unplacedWith left).scoped scope.unplaced =
      (decl.scoped scope).map (ScopedType.unplacedWith left) := by
  obtain ⟨span, kind, name, nameSpan, typeParameters, lists, modifiers, members⟩ := decl
  rw [TypeDecl.unplacedWith, TypeDecl.scoped, TypeDecl.scoped, List.map_cons,
    Scope.unplaced_enterType, TypeMember.scopedOfList_unplacedWith]
  rw [ScopedType.unplacedWith, TypeDecl.unplacedWith]

theorem TypeMember.scopedOfList_unplacedWith (scope : Scope) : ∀ members : List TypeMember,
    TypeMember.scopedOfList scope.unplaced (TypeMember.unplacedListWith left members) =
      (TypeMember.scopedOfList scope members).map (ScopedType.unplacedWith left)
  | [] => rfl
  | .method decl :: rest => by
      rw [TypeMember.unplacedListWith, TypeMember.scopedOfList, TypeMember.scopedOfList,
        TypeMember.scopedOfList_unplacedWith scope rest]
  | .type decl :: rest => by
      rw [TypeMember.unplacedListWith, TypeMember.scopedOfList, TypeMember.scopedOfList,
        TypeDecl.scoped_unplacedWith scope decl, TypeMember.scopedOfList_unplacedWith scope rest,
        List.map_append]

end

mutual

theorem NamespaceDecl.scoped_unplacedWith (scope : Scope) (decl : NamespaceDecl) :
    (decl.unplacedWith left).scoped scope.unplaced =
      (decl.scoped scope).map (ScopedType.unplacedWith left) := by
  obtain ⟨span, name, isFileScoped, usings, members⟩ := decl
  rw [NamespaceDecl.unplacedWith, NamespaceDecl.scoped, NamespaceDecl.scoped,
    Scope.unplaced_enterNamespace, NamespaceMember.scopedOfList_unplacedWith]

theorem NamespaceMember.scopedOfList_unplacedWith (scope : Scope) :
    ∀ members : List NamespaceMember,
      NamespaceMember.scopedOfList scope.unplaced (NamespaceMember.unplacedListWith left members) =
        (NamespaceMember.scopedOfList scope members).map (ScopedType.unplacedWith left)
  | [] => rfl
  | .space decl :: rest => by
      rw [NamespaceMember.unplacedListWith, NamespaceMember.scopedOfList,
        NamespaceMember.scopedOfList, NamespaceDecl.scoped_unplacedWith scope decl,
        NamespaceMember.scopedOfList_unplacedWith scope rest, List.map_append]
  | .type decl :: rest => by
      rw [NamespaceMember.unplacedListWith, NamespaceMember.scopedOfList,
        NamespaceMember.scopedOfList, TypeDecl.scoped_unplacedWith left scope decl,
        NamespaceMember.scopedOfList_unplacedWith scope rest, List.map_append]

end

/-- The types of a file without places are its types without places. -/
theorem SourceUnit.types_unplacedWith (unit : SourceUnit) :
    (unit.unplacedWith left).types = unit.types.map (ScopedType.unplacedWith left) :=
  NamespaceMember.scopedOfList_unplacedWith left { usings := unit.usings } unit.members

theorem TypeDecl.ownMethods_unplacedWith (decl : TypeDecl) :
    (decl.unplacedWith left).ownMethods = decl.ownMethods.map left := by
  obtain ⟨span, kind, name, nameSpan, typeParameters, lists, modifiers, members⟩ := decl
  rw [TypeDecl.unplacedWith, ownMethods, ownMethods, TypeMember.unplacedListWith_eq_map,
    List.filterMap_map, List.map_filterMap]
  apply List.filterMap_congr
  intro member _
  cases member <;> rfl

end Scoped

end ErrorAccessors
