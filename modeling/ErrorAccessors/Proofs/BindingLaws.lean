/-
# What binding makes of a type

Binding goes through a type part by part.  Only a dotted name needs a decision,
and there are four things that it may become: a type parameter, the target of an
alias, a reference to a declared type, or the name as it was written.  The
equations and the case distinction of this file are what everything else about
binding is derived from.
-/

import ErrorAccessors.Proofs.DottedName
import ErrorAccessors.TypeTable

namespace ErrorAccessors

section Equations

variable (types : List DeclaredType) (scope : Scope) (expandAlias : String → Option BoundType)

theorem TypeExpr.bindList_eq_map (list : List TypeExpr) :
    TypeExpr.bindList types scope expandAlias list =
      list.map (TypeExpr.bindWith types scope expandAlias) := by
  induction list with
  | nil => rfl
  | cons type rest ih => exact congrArg (type.bindWith types scope expandAlias :: ·) ih

/-- A part of a name with its arguments bound. -/
def NameSegment.bindWith (segment : NameSegment) : BoundSegment :=
  ⟨segment.name, segment.arguments.map (TypeExpr.bindWith types scope expandAlias)⟩

/-- A tuple element with its type bound. -/
def TupleElement.bindWith (element : TupleElement) : BoundElement :=
  ⟨element.type.bindWith types scope expandAlias, element.name⟩

theorem NameSegment.bindList_eq_map (segments : List NameSegment) :
    NameSegment.bindList types scope expandAlias segments =
      segments.map (NameSegment.bindWith types scope expandAlias) := by
  induction segments with
  | nil => rfl
  | cons segment rest ih =>
      obtain ⟨name, arguments⟩ := segment
      show ⟨name, TypeExpr.bindList types scope expandAlias arguments⟩ ::
        NameSegment.bindList types scope expandAlias rest = _
      rw [ih, TypeExpr.bindList_eq_map]
      rfl

theorem TupleElement.bindList_eq_map (elements : List TupleElement) :
    TupleElement.bindList types scope expandAlias elements =
      elements.map (TupleElement.bindWith types scope expandAlias) := by
  induction elements with
  | nil => rfl
  | cons element rest ih =>
      obtain ⟨type, name⟩ := element
      exact congrArg (TupleElement.bindWith types scope expandAlias ⟨type, name⟩ :: ·) ih

namespace TypeExpr

@[simp] theorem bindWith_predefined (keyword : String) (span : Span) :
    (predefined keyword span).bindWith types scope expandAlias = .simple keyword := rfl

@[simp] theorem bindWith_nullable (inner : TypeExpr) (span : Span) :
    (nullable inner span).bindWith types scope expandAlias =
      (inner.bindWith types scope expandAlias).withSuffix "?" := rfl

@[simp] theorem bindWith_pointer (inner : TypeExpr) (span : Span) :
    (pointer inner span).bindWith types scope expandAlias =
      (inner.bindWith types scope expandAlias).withSuffix "*" := rfl

@[simp] theorem bindWith_array (element : TypeExpr) (rank : Nat) (span : Span) :
    (array element rank span).bindWith types scope expandAlias =
      (element.bindWith types scope expandAlias).withSuffix (arraySuffix rank) := rfl

@[simp] theorem bindWith_tuple (elements : List TupleElement) (span : Span) :
    (tuple elements span).bindWith types scope expandAlias =
      .tuple (elements.map (TupleElement.bindWith types scope expandAlias)) :=
  congrArg BoundType.tuple (TupleElement.bindList_eq_map types scope expandAlias elements)

@[simp] theorem bindWith_named (qualifier : Option String) (segments : List NameSegment)
    (span : Span) :
    (named qualifier segments span).bindWith types scope expandAlias =
      BoundSegment.resolve types scope expandAlias qualifier
        (segments.map (NameSegment.bindWith types scope expandAlias)) :=
  congrArg (BoundSegment.resolve types scope expandAlias qualifier)
    (NameSegment.bindList_eq_map types scope expandAlias segments)

end TypeExpr

end Equations

/-- Every full name that a written name may mean ends with that name. -/
theorem Scope.endsWithPart_of_mem_candidates {scope : Scope} {written name : String}
    (nonempty : written ≠ "") (member : name ∈ scope.candidates written) :
    Text.EndsWithPart name written := by
  simp only [candidates, List.mem_append, List.mem_map] at member
  obtain ((⟨containers, -, rfl⟩ | ⟨parts, -, rfl⟩) | ⟨space, -, rfl⟩) := member
  · exact Text.endsWithPart_joinDotted (scope.space :: containers) nonempty
  · exact Text.endsWithPart_joinDotted parts nonempty
  · exact Text.endsWithPart_joinDotted [space] nonempty

namespace BoundSegment

variable {types : List DeclaredType} {scope : Scope} {expandAlias : String → Option BoundType}
  {qualifier : Option String}

/-- What a dotted name means. -/
inductive Resolves (types : List DeclaredType) (scope : Scope)
    (expandAlias : String → Option BoundType) :
    Option String → List BoundSegment → BoundType → Prop
  /-- A type parameter in scope. -/
  | parameter {name : String} (known : name ∈ scope.typeParameters) :
      Resolves types scope expandAlias none [⟨name, []⟩] (.parameter name)
  /-- What an alias stands for. -/
  | aliased {name : String} {target : BoundType} (unknown : name ∉ scope.typeParameters)
      (expands : expandAlias name = some target) :
      Resolves types scope expandAlias none [⟨name, []⟩] target
  /-- A declared type. -/
  | declared {qualifier : Option String} {before : List BoundSegment} {last : BoundSegment}
      {type : DeclaredType}
      (notPlain : plain? scope expandAlias qualifier (before ++ [last]) = none)
      (found : declared? types scope qualifier (before ++ [last]) = some type) :
      Resolves types scope expandAlias qualifier (before ++ [last]) (type.reference last.arguments)
  /-- The name as it was written. -/
  | written {qualifier : Option String} {before : List BoundSegment} {last : BoundSegment}
      (notPlain : plain? scope expandAlias qualifier (before ++ [last]) = none)
      (undeclared : declared? types scope qualifier (before ++ [last]) = none) :
      Resolves types scope expandAlias qualifier (before ++ [last])
        (asWritten qualifier before last)

/-- A plain name is a type parameter or an alias. -/
theorem plain?_eq_some {segments : List BoundSegment} {type : BoundType}
    (plain : plain? scope expandAlias qualifier segments = some type) :
    ∃ name, qualifier = none ∧ segments = [⟨name, []⟩] ∧
      (name ∈ scope.typeParameters ∧ type = .parameter name ∨
        name ∉ scope.typeParameters ∧ expandAlias name = some type) := by
  unfold plain? at plain
  split at plain
  · next name =>
    cases qualifier with
    | some word => cases plain
    | none =>
        refine ⟨name, rfl, rfl, ?_⟩
        by_cases known : name ∈ scope.typeParameters
        · simp only [Option.isSome_none, Bool.false_eq_true, if_false, List.contains_iff_mem,
            if_pos known, Option.some.injEq] at plain
          exact .inl ⟨known, plain.symm⟩
        · simp only [Option.isSome_none, Bool.false_eq_true, if_false, List.contains_iff_mem,
            if_neg known] at plain
          exact .inr ⟨known, plain⟩
  · cases plain

/-- A name that has parts is resolved in one of the four ways. -/
theorem resolves_resolve (types : List DeclaredType) (scope : Scope)
    (expandAlias : String → Option BoundType) (qualifier : Option String)
    {segments : List BoundSegment} (some : segments ≠ []) :
    Resolves types scope expandAlias qualifier segments
      (resolve types scope expandAlias qualifier segments) := by
  obtain ⟨before, last, rfl⟩ : ∃ before last, segments = before ++ [last] :=
    ⟨segments.dropLast, segments.getLast some, (List.dropLast_append_getLast some).symm⟩
  simp only [resolve, List.getLast?_append, List.getLast?_singleton, Option.some_or,
    List.dropLast_concat]
  cases plain : plain? scope expandAlias qualifier (before ++ [last]) with
  | some type =>
      obtain ⟨name, rfl, isName, ⟨known, rfl⟩ | ⟨unknown, expands⟩⟩ := plain?_eq_some plain
      · rw [isName]
        exact .parameter known
      · rw [isName]
        exact .aliased unknown expands
  | none =>
      cases found : declared? types scope qualifier (before ++ [last]) with
      | some type => exact .declared plain found
      | none => exact .written plain found

/-- A declared type is found by a full name that ends with the name as
written. -/
theorem declared?_eq_some {segments : List BoundSegment} {type : DeclaredType}
    (found : declared? types scope qualifier segments = some type)
    (nonempty : Text.joinDotted (segments.map BoundSegment.name) ≠ "") :
    type ∈ types ∧
      Text.EndsWithPart type.fullName (Text.joinDotted (segments.map BoundSegment.name)) := by
  obtain ⟨name, member, isFound⟩ := List.exists_of_findSome?_eq_some found
  have isName : type.fullName = name := by simpa using List.find?_some isFound
  refine ⟨List.mem_of_find?_eq_some isFound, isName ▸ ?_⟩
  cases qualifier with
  | some word =>
      rw [List.mem_singleton.mp member]
      exact .refl _
  | none => exact Scope.endsWithPart_of_mem_candidates nonempty member

end BoundSegment

end ErrorAccessors
