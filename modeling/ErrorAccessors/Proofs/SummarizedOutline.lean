/-
# What shows of an outline

Of a declaration one mostly wants to know what it is called, where it stands and what holds
there, not at which offset it begins.  These summaries do not depend on places, so they can
be read off an outline without places.  The file with the accessors of a method shows one
method for each entry and each time that the accessors are emitted, in the classes in which
the templates put it.
-/

import ErrorAccessors.Proofs.FirstKept
import ErrorAccessors.Proofs.OutlinedText
import ErrorAccessors.Proofs.UnplacedBinding

namespace ErrorAccessors

open ErrorAccessors.Parser

section Summaries

/-- What shows of a method: its name, the spelling of its return type and its type
parameters. -/
structure MethodSummary where
  name : String
  returnType : String
  typeParameters : List String
deriving DecidableEq, Repr

/-- What shows of a type: the namespace and the types around it, the spellings of the
directives that hold there, and the methods declared directly in it. -/
structure TypeSummary where
  space : String
  containers : List String
  usings : List String
  kind : TypeKind
  name : String
  methods : List MethodSummary
deriving DecidableEq, Repr

def MethodDecl.summary (method : MethodDecl) : MethodSummary :=
  ⟨method.name, method.returnType.text, method.typeParameters⟩

def ScopedType.summary (type : ScopedType) : TypeSummary where
  space := type.scope.space
  containers := type.scope.containers
  usings := type.scope.usings.map (·.text)
  kind := type.decl.kind
  name := type.decl.name
  methods := type.decl.ownMethods.map (·.summary)

@[simp] theorem MethodDecl.summary_unplaced (method : MethodDecl) :
    method.unplaced.summary = method.summary := by
  simp [summary, unplaced, TypeExpr.text_unplaced]

@[simp] theorem ScopedType.summary_unplacedWith (type : ScopedType) :
    (type.unplacedWith MethodDecl.unplaced).summary = type.summary := by
  obtain ⟨decl, scope⟩ := type
  have methods : (decl.unplacedWith MethodDecl.unplaced).ownMethods.map MethodDecl.summary =
      decl.ownMethods.map MethodDecl.summary := by
    rw [TypeDecl.ownMethods_unplacedWith, List.map_map]
    exact List.map_congr_left fun method _ => method.summary_unplaced
  have usings :
      scope.unplaced.usings.map UsingDirective.text = scope.usings.map UsingDirective.text := by
    rw [Scope.unplaced, List.map_map]
    rfl
  rw [unplacedWith, summary, summary, methods, usings]
  cases decl
  rw [TypeDecl.unplacedWith]
  rfl

namespace SourceUnit

theorem map_summary_methods_unplaced (unit : SourceUnit) :
    unit.unplaced.methods.map (·.summary) = unit.methods.map (·.summary) := by
  rw [unplaced, methods_unplacedWith, List.map_map]
  exact List.map_congr_left fun method _ => method.summary_unplaced

theorem map_summary_types_unplaced (unit : SourceUnit) :
    unit.unplaced.types.map (·.summary) = unit.types.map (·.summary) := by
  rw [unplaced, types_unplacedWith, List.map_map]
  exact List.map_congr_left fun type _ => type.summary_unplacedWith

end SourceUnit

end Summaries

namespace Template

section Frames

variable {path space runtimeNamespace : String} {imports : List UsingKind} {decl : TypeDecl}

/-- The methods in a frame are those of its declaration. -/
theorem methods_frameOutline :
    (frameOutline path space runtimeNamespace imports decl).methods = decl.methods := by
  unfold frameOutline
  split <;>
    simp [SourceUnit.methods, NamespaceMember.methodsOfList, NamespaceDecl.methods]

/-- Directives that differ are all added. -/
private theorem addNew_of_nodup (directives more : List UsingDirective)
    (differ : ((directives ++ more).map (·.text)).Nodup) :
    UsingDirective.addNew directives more = directives ++ more := by
  rw [List.map_append] at differ
  exact (foldl_keepFirst_of_nodup (fun _ => rfl) differ).trans (by rw [List.map_id'])

/-- In a frame whose directives differ all of them hold, in the namespace of the frame. -/
theorem types_frameOutline
    (differ : ((.ofNamespace runtimeNamespace :: imports).map UsingKind.text).Nodup) :
    (frameOutline path space runtimeNamespace imports decl).types =
      decl.scoped
        { space := space
          usings := (.ofNamespace runtimeNamespace :: imports).map (⟨.nowhere, false, ·⟩) } := by
  unfold frameOutline
  split
  · next noSpace =>
    subst noSpace
    simp [SourceUnit.types, NamespaceMember.scopedOfList]
  · next nonempty =>
    have added := addNew_of_nodup [⟨.nowhere, false, .ofNamespace runtimeNamespace⟩]
      (imports.map (⟨.nowhere, false, ·⟩))
      (by simpa [Function.comp_def, UsingDirective.text] using differ)
    have joined : Text.joinDotted ["", space] = space := by
      simp [Text.joinDotted, nonempty]
    simp [SourceUnit.types, NamespaceMember.scopedOfList, NamespaceDecl.scoped,
      Scope.enterNamespace, added, joined]

end Frames

section Members

variable {α : Type} (scope : Scope) (items : List α)

private theorem methodsOfList_map_method (method : α → MethodDecl) :
    TypeMember.methodsOfList (items.map fun item => .method (method item)) = items.map method := by
  induction items with
  | nil => rfl
  | cons item items ih => rw [List.map_cons, TypeMember.methodsOfList, ih, List.map_cons]

private theorem methodsOfList_map_type (type : α → TypeDecl) :
    TypeMember.methodsOfList (items.map fun item => .type (type item)) =
      items.flatMap fun item => (type item).methods := by
  induction items with
  | nil => rfl
  | cons item items ih => rw [List.map_cons, TypeMember.methodsOfList, ih, List.flatMap_cons]

private theorem scopedOfList_map_method (method : α → MethodDecl) :
    TypeMember.scopedOfList scope (items.map fun item => .method (method item)) = [] := by
  induction items with
  | nil => rfl
  | cons item items ih => rw [List.map_cons, TypeMember.scopedOfList, ih]

private theorem scopedOfList_map_type (type : α → TypeDecl) :
    TypeMember.scopedOfList scope (items.map fun item => .type (type item)) =
      items.flatMap fun item => (type item).scoped scope := by
  induction items with
  | nil => rfl
  | cons item items ih => rw [List.map_cons, TypeMember.scopedOfList, ih, List.flatMap_cons]

end Members

section Accessors

variable {typeName method : String} {type : TypeExpr} {generics : List String}
  {entries : List NamedEntry} {variant : Variant}

/-- What shows of the accessor for an entry. -/
def accessorSummary (carried : String) (generics : List String) (named : NamedEntry) :
    MethodSummary :=
  ⟨named.name, "Result<" ++ carried ++ ">", generics⟩

private theorem map_summary_accessorOutlines :
    (entries.map fun named => methodOutline (resultOf type.unplaced) named.name generics).map
        (·.summary) = entries.map (accessorSummary type.text generics) := by
  rw [List.map_map]
  refine List.map_congr_left fun named _ => ?_
  simp [methodOutline, MethodDecl.summary, accessorSummary, resultOf, TypeExpr.text,
    NameSegment.textOfList, NameSegment.text, TypeExpr.textOfList, TypeExpr.text_unplaced]

/-- The class that provides the results has the accessors once for each time that they are
emitted. -/
theorem map_summary_methods_providerOutline :
    (providerOutline typeName method type generics entries variant).methods.map (·.summary) =
      variant.messages.flatMap fun _ => entries.map (accessorSummary type.text generics) := by
  unfold providerOutline errorsOutline accessorOutline classOutline
  rw [TypeDecl.methods, methodsOfList_map_type, List.map_flatMap]
  refine List.flatMap_congr fun _ _ => ?_
  rw [TypeDecl.methods, methodsOfList_map_method, map_summary_accessorOutlines]

/-- The accessors stand in the classes of errors, and these in the class that provides the
results. -/
theorem map_summary_scoped_providerOutline (scope : Scope) :
    ((providerOutline typeName method type generics entries variant).scoped scope).map (·.summary) =
      ⟨scope.space, scope.containers, scope.usings.map (·.text), .classType,
          typeName ++ "ResultsProvider", []⟩ ::
        variant.messages.map fun _ =>
          ⟨scope.space, scope.containers ++ [typeName ++ "ResultsProvider"],
            scope.usings.map (·.text), .classType, method ++ "Errors",
            entries.map (accessorSummary type.text generics)⟩ := by
  unfold providerOutline errorsOutline accessorOutline classOutline
  rw [TypeDecl.scoped, scopedOfList_map_type, List.map_cons, List.map_flatMap]
  congr 1
  · simp [ScopedType.summary, TypeDecl.ownMethods]
  · refine (List.flatMap_congr fun _ _ => ?_).trans List.map_eq_flatMap.symm
    rw [TypeDecl.scoped, scopedOfList_map_method, List.map_singleton, ScopedType.summary,
      TypeDecl.ownMethods, List.filterMap_map]
    dsimp only [Function.comp_def]
    rw [List.filterMap_eq_map', map_summary_accessorOutlines]
    rfl

end Accessors

end Template

end ErrorAccessors
