/-
# Types of which nothing is declared

Binding takes a type apart and keeps its pieces in other places: a suffix
becomes a text behind the type, the parts in front of a dotted name become its
namespace, and the word in front of `::` goes into the name or the namespace.
Spelling the bound type puts the pieces together again.  Where no name in the
type means a declaration, what comes out is the text of the type itself.

Type parameters in scope make no difference, since a parameter is spelled with
its bare name.  Aliases would: they replace a name by what they stand for.
-/

import ErrorAccessors.Proofs.FullNames

namespace ErrorAccessors

/-- A type stands in another one, at any depth; also in itself. -/
inductive TypeExpr.OccursIn (inner : TypeExpr) : TypeExpr → Prop
  | whole : OccursIn inner inner
  | nullable {type : TypeExpr} {span : Span} (inside : OccursIn inner type) :
      OccursIn inner (.nullable type span)
  | pointer {type : TypeExpr} {span : Span} (inside : OccursIn inner type) :
      OccursIn inner (.pointer type span)
  | array {type : TypeExpr} {rank : Nat} {span : Span} (inside : OccursIn inner type) :
      OccursIn inner (.array type rank span)
  | element {elements : List TupleElement} {element : TupleElement} {span : Span}
      (member : element ∈ elements) (inside : OccursIn inner element.type) :
      OccursIn inner (.tuple elements span)
  | argument {qualifier : Option String} {segments : List NameSegment} {segment : NameSegment}
      {argument : TypeExpr} {span : Span} (part : segment ∈ segments)
      (member : argument ∈ segment.arguments) (inside : OccursIn inner argument) :
      OccursIn inner (.named qualifier segments span)

/-- The full names that a dotted name may mean.  Behind a word and `::` it means
itself alone. -/
def Scope.meanings (scope : Scope) (qualifier : Option String) (dotted : String) : List String :=
  match qualifier with
  | some _ => [dotted]
  | none => scope.candidates dotted

/-- A name means no declared type just if none of the full names that it may mean is
declared. -/
theorem Scope.declared?_eq_none_iff {scope : Scope} {types : List DeclaredType}
    {qualifier : Option String} {dotted : String} :
    scope.declared? types qualifier dotted = none ↔
      ∀ name ∈ scope.meanings qualifier dotted, ∀ head ∈ types, head.fullName ≠ name := by
  have looksUp : scope.declared? types qualifier dotted =
      (scope.meanings qualifier dotted).findSome? fun name =>
        types.find? fun head => head.fullName == name := rfl
  simp only [looksUp, List.findSome?_eq_none_iff, List.find?_eq_none, beq_iff_eq, ne_eq]

/-- No dotted name in a type means a declaration. -/
def TypeExpr.IsUndeclared (types : List DeclaredType) (scope : Scope) (type : TypeExpr) : Prop :=
  ∀ qualifier segments span, (named qualifier segments span).OccursIn type →
    ∀ name ∈ scope.meanings qualifier (NameSegment.dotted segments),
      ∀ head ∈ types, head.fullName ≠ name

section Spelling

variable {types : List DeclaredType} {scope : Scope}

namespace TypeExpr

@[simp] theorem isUndeclared_nullable {inner : TypeExpr} {span : Span} :
    (nullable inner span).IsUndeclared types scope ↔ inner.IsUndeclared types scope := by
  constructor
  · exact fun undeclared _ _ _ occurs => undeclared _ _ _ (.nullable occurs)
  · rintro undeclared _ _ _ (_ | inside)
    exact undeclared _ _ _ inside

@[simp] theorem isUndeclared_pointer {inner : TypeExpr} {span : Span} :
    (pointer inner span).IsUndeclared types scope ↔ inner.IsUndeclared types scope := by
  constructor
  · exact fun undeclared _ _ _ occurs => undeclared _ _ _ (.pointer occurs)
  · rintro undeclared _ _ _ (_ | _ | inside)
    exact undeclared _ _ _ inside

@[simp] theorem isUndeclared_array {element : TypeExpr} {rank : Nat} {span : Span} :
    (array element rank span).IsUndeclared types scope ↔ element.IsUndeclared types scope := by
  constructor
  · exact fun undeclared _ _ _ occurs => undeclared _ _ _ (.array occurs)
  · rintro undeclared _ _ _ (_ | _ | _ | inside)
    exact undeclared _ _ _ inside

theorem isUndeclared_tuple {elements : List TupleElement} {span : Span} :
    (tuple elements span).IsUndeclared types scope ↔
      ∀ element ∈ elements, element.type.IsUndeclared types scope := by
  constructor
  · exact fun undeclared _ member _ _ _ occurs => undeclared _ _ _ (.element member occurs)
  · rintro undeclared _ _ _ (_ | _ | _ | _ | ⟨member, inside⟩)
    exact undeclared _ member _ _ _ inside

theorem isUndeclared_named {qualifier : Option String} {segments : List NameSegment}
    {span : Span} :
    (named qualifier segments span).IsUndeclared types scope ↔
      scope.declared? types qualifier (NameSegment.dotted segments) = none ∧
        ∀ segment ∈ segments, ∀ argument ∈ segment.arguments,
          argument.IsUndeclared types scope := by
  rw [Scope.declared?_eq_none_iff]
  constructor
  · exact fun undeclared => ⟨undeclared _ _ _ .whole, fun _ part _ member _ _ _ occurs =>
      undeclared _ _ _ (.argument part member occurs)⟩
  · rintro ⟨unknown, inArguments⟩ _ _ _ (_ | _ | _ | _ | _ | ⟨part, member, inside⟩)
    · exact unknown
    · exact inArguments _ part _ member _ _ _ inside

end TypeExpr

/-- Where no name in a type means a declaration and no alias is in scope, the bound
type is spelled as the type was written, whatever type parameters are in scope. -/
theorem TypeExpr.IsWellFormed.text_bind_undeclared {type : TypeExpr} (formed : type.IsWellFormed)
    (noAlias : scope.HasNoAlias) (undeclared : type.IsUndeclared types scope) :
    (type.bind types scope).text = type.text := by
  induction formed with
  | predefined known =>
      rw [TypeExpr.bind, bindWith_predefined, BoundType.text, BoundType.render_eq rfl]
      simp [BoundType.simple, BoundType.qualifierText, angled, TypeExpr.text]
  | nullable formed ih =>
      rw [text_bind_nullable, ih (isUndeclared_nullable.mp undeclared), TypeExpr.text]
  | pointer formed ih =>
      rw [text_bind_pointer, ih (isUndeclared_pointer.mp undeclared), TypeExpr.text]
  | array formed dimension ih =>
      rw [text_bind_array, ih (isUndeclared_array.mp undeclared), TypeExpr.text]
  | @tuple elements span nonempty formed words ih =>
      have inElements := isUndeclared_tuple.mp undeclared
      have same := text_tuple_eq_render (fun type => type) nonempty
        (fun element member => (ih element member (inElements element member)).symm) span
      rw [List.map_id'' fun element => by cases element; rfl] at same
      exact same.symm
  | @named qualifier first others span isName isWord words arguments ih =>
      obtain ⟨unknown, inArguments⟩ := isUndeclared_named.mp undeclared
      have same := text_named_eq_render noAlias (fun type => type) (List.cons_ne_nil first others)
        (fun segment part => (words segment part).ne_empty) unknown
        (fun segment part argument member => (ih segment part argument member
          (inArguments segment part argument member)).symm) span
      rw [List.map_id'' fun segment => by cases segment; rw [List.map_id']] at same
      exact same.symm

/-- The type `(a::Box<T[]>.Item? item, T)`. -/
private def itemPair : TypeExpr :=
  .tuple
    [⟨.nullable (.named (some "a")
        [⟨"Box", [.array (.named none [⟨"T", []⟩] .nowhere) 1 .nowhere]⟩, ⟨"Item", []⟩] .nowhere)
      .nowhere, some "item"⟩, ⟨.named none [⟨"T", []⟩] .nowhere, none⟩] .nowhere

/-- A scope in a namespace, with one type parameter and one directive. -/
private def appScope : Scope where
  space := "App"
  usings := [⟨.nowhere, false, .ofNamespace "Lib"⟩]
  typeParameters := ["T"]

/-- A class that is called like a part of the type but stands in another namespace. -/
private def otherItem : DeclaredType :=
  ⟨"Item", "Other", [], "Other.Item", .classType, []⟩

/-- A type with an alias in front of `::`, arguments in a qualifier, a suffix, a named
element and a type parameter keeps its text. -/
theorem TypeExpr.text_bind_of_itemPair :
    itemPair.IsWellFormed ∧ appScope.HasNoAlias ∧ itemPair.IsUndeclared [otherItem] appScope ∧
      (itemPair.bind [otherItem] appScope).text = "(a::Box<T[]>.Item? item, T)" := by
  have parameter : IsWellFormed (.named none [⟨"T", []⟩] .nowhere) :=
    .named (by decide) nofun (by decide) (List.forall_mem_singleton.mpr nofun)
  have formed : itemPair.IsWellFormed :=
    .tuple (by simp)
      (List.forall_mem_cons.mpr ⟨.nullable (.named (by decide) (by decide) (by decide)
          (List.forall_mem_cons.mpr
            ⟨List.forall_mem_singleton.mpr (.array parameter (by decide)),
              List.forall_mem_singleton.mpr nofun⟩)),
        List.forall_mem_singleton.mpr parameter⟩)
      (by decide)
  have noAlias : appScope.HasNoAlias := List.forall_mem_singleton.mpr nofun
  have unbound : IsUndeclared [otherItem] appScope (.named none [⟨"T", []⟩] .nowhere) :=
    isUndeclared_named.mpr ⟨by decide, List.forall_mem_singleton.mpr nofun⟩
  have undeclared : itemPair.IsUndeclared [otherItem] appScope := by
    refine isUndeclared_tuple.mpr (List.forall_mem_cons.mpr
      ⟨isUndeclared_nullable.mpr (isUndeclared_named.mpr ⟨by decide, ?_⟩),
        List.forall_mem_singleton.mpr unbound⟩)
    exact List.forall_mem_cons.mpr
      ⟨List.forall_mem_singleton.mpr (isUndeclared_array.mpr unbound),
        List.forall_mem_singleton.mpr nofun⟩
  have written : itemPair.text = "(a::Box<T[]>.Item? item, T)" := by decide
  exact ⟨formed, noAlias, undeclared,
    (formed.text_bind_undeclared noAlias undeclared).trans written⟩

end Spelling

end ErrorAccessors
