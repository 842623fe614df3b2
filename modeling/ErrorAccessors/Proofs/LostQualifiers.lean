/-
# Qualifiers that are lost in generated code

The return type of a method is spelled in generated code with the generic
parameters of the method left bare.  Whether a name is one of them is seen from
the name alone.  A type parameter has neither a namespace nor a type around it,
so it is spelled alike either way.  A type that is only called like a parameter is
not: without type arguments of its own it loses what stands in front of its name.

This module says exactly when that happens to a return type.  A plain name that
is called like a parameter is that parameter, so the name must be a dotted one,
or one behind `::`, or stand for such a type through an alias.
-/

import ErrorAccessors.Proofs.CapturedNames

namespace ErrorAccessors

/-- Induction over bound types: what is shown of a type may be assumed of its arguments
and of its elements. -/
@[elab_as_elim]
theorem BoundType.induction {motive : BoundType → Prop}
    (step : ∀ type : BoundType, (∀ argument ∈ type.arguments, motive argument) →
      (∀ element ∈ type.elements, motive element.type) → motive type) :
    ∀ type, motive type
  | ⟨name, space, container, arguments, elements, suffix, isParameter⟩ =>
    step ⟨name, space, container, arguments, elements, suffix, isParameter⟩
      (fun argument (_ : argument ∈ arguments) => induction step argument)
      fun element (_ : element ∈ elements) => induction step element.type
termination_by type => sizeOf type
decreasing_by
  · have smaller := List.sizeOf_lt_of_mem ‹argument ∈ arguments›
    simp only [mk.sizeOf_spec]
    omega
  · have smaller := List.sizeOf_lt_of_mem ‹element ∈ elements›
    have inElement : sizeOf element.type < sizeOf element := by
      cases element
      simp only [BoundElement.mk.sizeOf_spec]
      omega
    simp only [mk.sizeOf_spec]
    omega

namespace BoundType

/-- A type refers, itself or inside, to a type that is called like one of some generic
parameters, without type arguments, and stands in a namespace or in another type. -/
inductive Shortens (generics : List String) : BoundType → Prop
  | name {type : BoundType} (single : type.elements = []) (bare : type.arguments = [])
      (known : type.name ∈ generics) (qualified : type.space ≠ none ∨ type.container ≠ none) :
      Shortens generics type
  | argument {type argument : BoundType} (single : type.elements = [])
      (member : argument ∈ type.arguments) (inside : Shortens generics argument) :
      Shortens generics type
  | element {type : BoundType} {element : BoundElement} (member : element ∈ type.elements)
      (inside : Shortens generics element.type) : Shortens generics type

section Shortening

variable {type : BoundType} {generics : List String}

theorem shortens_of_elements (several : type.elements ≠ []) :
    type.Shortens generics ↔ ∃ element ∈ type.elements, element.type.Shortens generics := by
  constructor
  · rintro (⟨single, -⟩ | ⟨single, -⟩ | ⟨member, inside⟩)
    · exact absurd single several
    · exact absurd single several
    · exact ⟨_, member, inside⟩
  · rintro ⟨element, member, inside⟩
    exact .element member inside

theorem shortens_of_arguments (single : type.elements = []) (generic : type.arguments ≠ []) :
    type.Shortens generics ↔ ∃ argument ∈ type.arguments, argument.Shortens generics := by
  constructor
  · rintro (⟨-, bare, -⟩ | ⟨-, member, inside⟩ | ⟨member, -⟩)
    · exact absurd bare generic
    · exact ⟨_, member, inside⟩
    · rw [single] at member
      cases member
  · rintro ⟨argument, member, inside⟩
    exact .argument single member inside

theorem shortens_of_bare (single : type.elements = []) (bare : type.arguments = []) :
    type.Shortens generics ↔
      type.name ∈ generics ∧ (type.space ≠ none ∨ type.container ≠ none) := by
  constructor
  · rintro (⟨-, -, known, qualified⟩ | ⟨-, member, -⟩ | ⟨member, -⟩)
    · exact ⟨known, qualified⟩
    · rw [bare] at member
      cases member
    · rw [single] at member
      cases member
  · rintro ⟨known, qualified⟩
    exact .name single bare known qualified

theorem longer_qualifierText (qualifier : Option String) :
    LongerUnless (qualifier = none) "" (qualifierText qualifier) := by
  cases qualifier with
  | none => exact (LongerUnless.refl _).imp fun _ => rfl
  | some words => exact ⟨Nat.zero_le _, fun short => by simp [qualifierText] at short⟩

/-- With generic parameters left bare a type is spelled shorter, unless nothing is left
out. -/
theorem longer_text (type : BoundType) (generics : List String) :
    LongerUnless (¬ type.Shortens generics) (type.render generics) type.text := by
  induction type using BoundType.induction with
  | step type inArguments inElements =>
  by_cases single : type.elements = []
  · by_cases bare : type.arguments = []
    · rw [text, render_of_bare _ single bare, render_of_bare _ single bare,
        if_neg List.not_mem_nil, shortens_of_bare single bare]
      by_cases known : type.name ∈ generics
      · have longer := (((longer_qualifierText type.space).append
          (longer_qualifierText type.container)).append_right type.name).append_right type.suffix
        rw [String.empty_append, String.empty_append] at longer
        rw [if_pos known]
        exact longer.imp fun unqualified both =>
          both.2.elim (absurd unqualified.1) (absurd unqualified.2)
      · rw [if_neg known]
        exact (LongerUnless.refl _).imp fun _ both => known both.1
    · have arguments := LongerUnless.intercalate ", " inArguments
      rw [text, render_of_arguments _ single bare, render_of_arguments _ single bare,
        shortens_of_arguments single bare]
      refine (((arguments.append_left _).append_right ">").append_right type.suffix).imp
        fun each => ?_
      rintro ⟨argument, member, inside⟩
      exact each argument member inside
  · have inElement : ∀ element ∈ type.elements, LongerUnless (¬ element.type.Shortens generics)
        (element.render generics) (element.render []) := by
      rintro ⟨type, name⟩ member
      cases name with
      | none => exact inElements _ member
      | some name => exact ((inElements _ member).append_right " ").append_right name
    have elements := LongerUnless.intercalate ", " inElement
    rw [text, render_of_elements _ single, render_of_elements _ single, shortens_of_elements single]
    refine (((elements.append_left _).append_right ")").append_right type.suffix).imp
      fun each => ?_
    rintro ⟨element, member, inside⟩
    exact each element member inside

theorem render_eq_of_not_shortens (type : BoundType) (generics : List String)
    (kept : ¬ type.Shortens generics) : type.render generics = type.text := by
  induction type using BoundType.induction with
  | step type inArguments inElements =>
  by_cases single : type.elements = []
  · by_cases bare : type.arguments = []
    · rw [shortens_of_bare single bare] at kept
      rw [text, render_of_bare _ single bare, render_of_bare _ single bare,
        if_neg List.not_mem_nil]
      by_cases known : type.name ∈ generics
      · obtain ⟨noSpace, noContainer⟩ := not_or.mp (not_and.mp kept known)
        rw [if_pos known, not_not.mp noSpace, not_not.mp noContainer, qualifierText,
          String.empty_append, String.empty_append]
      · rw [if_neg known]
    · rw [shortens_of_arguments single bare] at kept
      have same : type.arguments.map (render generics) = type.arguments.map (render []) :=
        List.map_congr_left fun argument member =>
          inArguments argument member fun inside => kept ⟨argument, member, inside⟩
      rw [text, render_of_arguments _ single bare, render_of_arguments _ single bare, same]
  · rw [shortens_of_elements single] at kept
    have sameElement : ∀ element ∈ type.elements, element.render generics = element.render [] := by
      rintro ⟨type, name⟩ member
      have same : type.render generics = type.text :=
        inElements _ member fun inside => kept ⟨_, member, inside⟩
      cases name with
      | none => exact same
      | some name => exact congrArg (· ++ " " ++ name) same
    rw [text, render_of_elements _ single, render_of_elements _ single,
      List.map_congr_left sameElement]

/-- With generic parameters left bare a type is spelled in full just if it does not
refer to a qualified type that is called like one of them. -/
theorem render_eq_text_iff (type : BoundType) (generics : List String) :
    type.render generics = type.text ↔ ¬ type.Shortens generics :=
  ⟨fun same => (type.longer_text generics).holds (by rw [same]),
    type.render_eq_of_not_shortens generics⟩

end Shortening

theorem shortens_of_single {type : BoundType} {generics : List String}
    (single : type.elements = []) :
    type.Shortens generics ↔
      (type.arguments = [] ∧ type.name ∈ generics ∧
          (type.space ≠ none ∨ type.container ≠ none)) ∨
        ∃ argument ∈ type.arguments, argument.Shortens generics := by
  by_cases bare : type.arguments = []
  · rw [shortens_of_bare single bare, bare]
    simp
  · rw [shortens_of_arguments single bare]
    simp [bare]

@[simp] theorem not_shortens_simple (name : String) (generics : List String) :
    ¬ (simple name).Shortens generics := by
  simp [shortens_of_single, simple]

@[simp] theorem not_shortens_parameter (name : String) (generics : List String) :
    ¬ (parameter name).Shortens generics := by
  simp [shortens_of_single, parameter, simple]

@[simp] theorem shortens_withSuffix {type : BoundType} {suffix : String} {generics : List String} :
    (type.withSuffix suffix).Shortens generics ↔ type.Shortens generics := by
  by_cases single : type.elements = []
  · rw [shortens_of_single single]
    exact shortens_of_single single
  · rw [shortens_of_elements single]
    exact shortens_of_elements single

end BoundType

/-- A reference to a declaration loses what stands around the declaration, or its
arguments lose something. -/
theorem DeclaredType.IsProper.shortens_reference {head : DeclaredType} (proper : head.IsProper)
    {arguments : List BoundType} {generics : List String} :
    (head.reference arguments).Shortens generics ↔
      (arguments = [] ∧ head.name ∈ generics ∧ (head.space ≠ "" ∨ head.containers ≠ [])) ∨
        ∃ argument ∈ arguments, argument.Shortens generics := by
  have inSpace : nonempty? head.space ≠ none ↔ head.space ≠ "" := by simp [nonempty?]
  have inType : nonempty? (".".intercalate head.containers) ≠ none ↔ head.containers ≠ [] := by
    cases containers : head.containers with
    | nil => simp [nonempty?]
    | cons first rest =>
        have isFirst := (proper.containers first (by simp [containers])).ne_empty
        cases rest <;> simp [nonempty?, isFirst, String.intercalate_cons_cons]
  rw [BoundType.shortens_of_single rfl, ← inSpace, ← inType]
  rfl

/-- A name that is kept as it was written loses the parts in front, or its arguments lose
something. -/
theorem BoundSegment.shortens_asWritten {qualifier : Option String} {before : List BoundSegment}
    (named : ∀ segment ∈ before, segment.name ≠ "") {last : BoundSegment} {generics : List String} :
    (asWritten qualifier before last).Shortens generics ↔
      (last.arguments = [] ∧ last.name ∈ generics ∧ before ≠ []) ∨
        ∃ argument ∈ last.arguments, argument.Shortens generics := by
  rw [BoundType.shortens_of_single rfl]
  cases before with
  | nil => simp [asWritten, BoundType.simple]
  | cons first rest =>
      have nonempty := intercalate_text_ne_empty (named first List.mem_cons_self) rest
      rw [List.map_cons] at nonempty
      cases qualifier <;> simp [asWritten, BoundType.simple, nonempty]

/-- A written type refers, itself or inside, to a type that loses its qualifier in
generated code where some generic parameters are left bare. -/
inductive TypeExpr.LosesQualifier (types : List DeclaredType) (scope : Scope)
    (generics : List String) : TypeExpr → Prop
  | nullable {inner : TypeExpr} {span : Span} (inside : LosesQualifier types scope generics inner) :
      LosesQualifier types scope generics (.nullable inner span)
  | pointer {inner : TypeExpr} {span : Span} (inside : LosesQualifier types scope generics inner) :
      LosesQualifier types scope generics (.pointer inner span)
  | array {element : TypeExpr} {rank : Nat} {span : Span}
      (inside : LosesQualifier types scope generics element) :
      LosesQualifier types scope generics (.array element rank span)
  | element {elements : List TupleElement} {element : TupleElement} {span : Span}
      (member : element ∈ elements) (inside : LosesQualifier types scope generics element.type) :
      LosesQualifier types scope generics (.tuple elements span)
  | argument {qualifier : Option String} {segments : List NameSegment} {last : NameSegment}
      {argument : TypeExpr} {span : Span} (isLast : segments.getLast? = some last)
      (member : argument ∈ last.arguments)
      (inside : LosesQualifier types scope generics argument) :
      LosesQualifier types scope generics (.named qualifier segments span)
  /-- A dotted name, or one behind `::`, that means a declaration in a namespace or in
  another type. -/
  | declared {qualifier : Option String} {segments : List NameSegment} {last : NameSegment}
      {head : DeclaredType} {span : Span} (isLast : segments.getLast? = some last)
      (dotted : qualifier ≠ none ∨ segments ≠ [last]) (bare : last.arguments = [])
      (known : last.name ∈ generics)
      (found : scope.declared? types qualifier (NameSegment.dotted segments) = some head)
      (inner : head.space ≠ "" ∨ head.containers ≠ []) :
      LosesQualifier types scope generics (.named qualifier segments span)
  /-- A dotted name that means no declaration. -/
  | written {qualifier : Option String} {segments : List NameSegment} {last : NameSegment}
      {span : Span} (isLast : segments.getLast? = some last) (dotted : segments ≠ [last])
      (bare : last.arguments = []) (known : last.name ∈ generics)
      (undeclared : scope.declared? types qualifier (NameSegment.dotted segments) = none) :
      LosesQualifier types scope generics (.named qualifier segments span)
  /-- An alias of such a type. -/
  | aliased {name : String} {target : BoundType} {span : Span}
      (unknown : name ∉ scope.typeParameters)
      (expands : scope.expandAlias types name = some target)
      (shortens : target.Shortens generics) :
      LosesQualifier types scope generics (.named none [⟨name, []⟩] span)

section Written

variable {types : List DeclaredType} {scope : Scope} {generics : List String}

namespace TypeExpr

theorem losesQualifier_nullable {inner : TypeExpr} {span : Span} :
    (nullable inner span).LosesQualifier types scope generics ↔
      inner.LosesQualifier types scope generics :=
  ⟨fun | .nullable inside => inside, .nullable⟩

theorem losesQualifier_pointer {inner : TypeExpr} {span : Span} :
    (pointer inner span).LosesQualifier types scope generics ↔
      inner.LosesQualifier types scope generics :=
  ⟨fun | .pointer inside => inside, .pointer⟩

theorem losesQualifier_array {element : TypeExpr} {rank : Nat} {span : Span} :
    (array element rank span).LosesQualifier types scope generics ↔
      element.LosesQualifier types scope generics :=
  ⟨fun | .array inside => inside, .array⟩

/-- A name that is called like a type parameter or an alias, and is neither dotted nor
behind `::`, does not lose a qualifier unless the alias does. -/
theorem losesQualifier_plain {name : String} {span : Span}  :
    (named none [⟨name, []⟩] span).LosesQualifier types scope generics ↔
      name ∉ scope.typeParameters ∧
        ∃ target, scope.expandAlias types name = some target ∧ target.Shortens generics := by
  constructor
  · intro loses
    cases loses with
    | argument isLast member inside =>
        cases isLast
        cases member
    | declared isLast dotted bare known found inner =>
        cases isLast
        exact absurd rfl (dotted.resolve_left (absurd rfl))
    | written isLast dotted bare known undeclared =>
        cases isLast
        exact absurd rfl dotted
    | aliased unknown expands shortens => exact ⟨unknown, _, expands, shortens⟩
  · rintro ⟨unknown, target, expands, shortens⟩
    exact .aliased unknown expands shortens

/-- A name that is no alias and no parameter loses its qualifier if its arguments do, or if
it has no arguments, is called like a parameter and stands somewhere. -/
theorem losesQualifier_named {qualifier : Option String} {before : List NameSegment}
    {last : NameSegment}
    (plainly : qualifier = none → before = [] → last.arguments = [] →
      last.name ∉ generics ∧ scope.expandAlias types last.name = none) (span : Span) :
    (named qualifier (before ++ [last]) span).LosesQualifier types scope generics ↔
      (last.arguments = [] ∧ last.name ∈ generics ∧
        match scope.declared? types qualifier (NameSegment.dotted (before ++ [last])) with
        | some head => head.space ≠ "" ∨ head.containers ≠ []
        | none => before ≠ []) ∨
      ∃ argument ∈ last.arguments, argument.LosesQualifier types scope generics := by
  have isLast : (before ++ [last]).getLast? = some last := by simp
  constructor
  · intro loses
    generalize isName : before ++ [last] = segments at loses
    cases loses with
    | argument isLast' member inside =>
        obtain rfl := Option.some.inj ((isName ▸ isLast).symm.trans isLast')
        exact .inr ⟨_, member, inside⟩
    | declared isLast' dotted bare known found inner =>
        obtain rfl := Option.some.inj ((isName ▸ isLast).symm.trans isLast')
        rw [found]
        exact .inl ⟨bare, known, inner⟩
    | written isLast' dotted bare known undeclared =>
        obtain rfl := Option.some.inj ((isName ▸ isLast).symm.trans isLast')
        rw [undeclared]
        refine .inl ⟨bare, known, fun nothing => dotted ?_⟩
        rw [← isName, nothing, List.nil_append]
    | @aliased name target span unknown expands shortens =>
        have isName : before ++ [last] = [] ++ [⟨name, []⟩] := isName
        obtain ⟨nothing, isOnly⟩ := List.append_inj' isName rfl
        obtain rfl := List.singleton_inj.mp isOnly
        cases expands.symm.trans (plainly rfl nothing rfl).2
  · rintro (⟨bare, known, inner⟩ | ⟨argument, member, inside⟩)
    · cases found : scope.declared? types qualifier (NameSegment.dotted (before ++ [last])) with
      | some head =>
          rw [found] at inner
          refine .declared isLast ?_ bare known found inner
          by_contra plain
          obtain ⟨noQualifier, isOnly⟩ := not_or.mp plain
          exact (plainly (not_not.mp noQualifier) (by simpa using isOnly) bare).1 known
      | none =>
          rw [found] at inner
          exact .written isLast (by simpa using inner) bare known found
    · exact .argument isLast member inside

theorem bind_alias {name : String} {target : BoundType} (unknown : name ∉ scope.typeParameters)
    (expands : scope.expandAlias types name = some target) (span : Span) :
    (named none [⟨name, []⟩] span).bind types scope = target := by
  rw [bind, bindWith_named]
  simp [NameSegment.bindWith, BoundSegment.resolve, BoundSegment.plain?, unknown, expands]

variable (placed : ∀ head ∈ types, head.IsPlaced) (named : ∀ head ∈ types, head.IsNamed)
  (known : ∀ name ∈ generics, name ∈ scope.typeParameters)

include placed named known

/-- The bound type is spelled shorter with the generic parameters left bare just if the
written one loses a qualifier. -/
theorem IsProper.shortens_bind_iff {type : TypeExpr} (proper : type.IsProper) :
    (type.bind types scope).Shortens generics ↔ type.LosesQualifier types scope generics := by
  induction proper with
  | predefined isKeyword =>
      rw [TypeExpr.bind, bindWith_predefined]
      exact iff_of_false (BoundType.not_shortens_simple _ _) fun loses => by cases loses
  | nullable proper ih =>
      exact BoundType.shortens_withSuffix.trans (ih.trans losesQualifier_nullable.symm)
  | pointer proper ih =>
      exact BoundType.shortens_withSuffix.trans (ih.trans losesQualifier_pointer.symm)
  | array proper ih =>
      exact BoundType.shortens_withSuffix.trans (ih.trans losesQualifier_array.symm)
  | @tuple elements span nonempty proper ih =>
      rw [TypeExpr.bind, bindWith_tuple,
        BoundType.shortens_of_elements (mt List.map_eq_nil_iff.mp nonempty)]
      constructor
      · rintro ⟨bound, member, inside⟩
        obtain ⟨element, inElements, rfl⟩ := List.mem_map.mp member
        exact .element inElements ((ih element inElements).mp inside)
      · rintro (_ | _ | _ | ⟨member, inside⟩)
        exact ⟨_, List.mem_map_of_mem member, (ih _ member).mpr inside⟩
  | @named qualifier segments span nonempty words proper ih =>
      obtain ⟨before, last, rfl⟩ : ∃ before last, segments = before ++ [last] :=
        ⟨segments.dropLast, segments.getLast nonempty, (List.dropLast_append_getLast nonempty).symm⟩
      have isWord : Lexeme.IsWord last.name.toList := words last (by simp)
      have inArguments : (∃ argument ∈ last.arguments.map (fun type => type.bind types scope),
            argument.Shortens generics) ↔
          ∃ argument ∈ last.arguments, argument.LosesQualifier types scope generics := by
        have each := ih last (by simp)
        simp only [List.mem_map, exists_exists_and_eq_and]
        exact exists_congr fun argument => and_congr_right fun member => each argument member
      cases plain : BoundSegment.plain? scope (scope.expandAlias types) qualifier
          ((before ++ [last]).map (NameSegment.bound types scope)) with
      | some bound =>
          obtain ⟨name, rfl, isName, meaning⟩ := BoundSegment.plain?_eq_some plain
          rw [NameSegment.eq_of_map_bound isName, losesQualifier_plain]
          rcases meaning with ⟨isParameter, rfl⟩ | ⟨unknown, expands⟩
          · rw [bind_parameter isParameter]
            exact iff_of_false (BoundType.not_shortens_parameter _ _) fun loses =>
              loses.1 isParameter
          · rw [bind_alias unknown expands, expands]
            simp [unknown]
      | none =>
          have plainly (noQualifier : qualifier = none) (nothing : before = [])
              (bare : last.arguments = []) :
              last.name ∉ generics ∧ scope.expandAlias types last.name = none := by
            obtain ⟨name, arguments⟩ := last
            obtain rfl : arguments = [] := bare
            subst noQualifier nothing
            have notParameter : name ∉ scope.typeParameters := fun isParameter => by
              simp [BoundSegment.plain?, NameSegment.bound, isParameter] at plain
            refine ⟨fun isGeneric => notParameter (known name isGeneric), ?_⟩
            simpa [BoundSegment.plain?, NameSegment.bound, notParameter] using plain
          rw [bind_named_of_notPlain plain, losesQualifier_named plainly, ← inArguments]
          cases found : scope.declared? types qualifier (NameSegment.dotted (before ++ [last])) with
          | some head =>
              have isNamed : head.name = last.name := by
                rw [← NameSegment.declared?_map_bound, List.map_append, List.map_singleton] at found
                exact BoundSegment.name_of_declared? named isWord found
              rw [(placed head (Scope.of_declared? found).1).proper.shortens_reference, isNamed,
                List.map_eq_nil_iff]
          | none =>
              have nonempty : ∀ segment ∈ before.map (NameSegment.bound types scope),
                  segment.name ≠ "" := List.forall_mem_map.mpr fun segment member =>
                (words segment (List.mem_append_left _ member)).ne_empty
              rw [BoundSegment.shortens_asWritten nonempty, ne_eq, List.map_eq_nil_iff]
              simp [NameSegment.bound]

end TypeExpr

end Written

/-- The return type of a method is spelled in full with the generic parameters of the
method left bare, unless it refers to a type that loses its qualifier: a dotted name, a
name behind `::` or an alias, without type arguments, of a type that is called like one
of the parameters and stands in a namespace or in another type. -/
theorem PlacedMethod.spelled_in_full_iff {units : List SourceUnit}
    (parsed : ∀ unit ∈ units, unit.IsParsed) {placed : PlacedMethod}
    (member : placed ∈ PlacedMethod.ofUnits units) :
    let known := TypeTable.heads (units.flatMap SourceUnit.types)
    let symbol := placed.symbol known
    symbol.returnType.render symbol.typeParameters = symbol.returnType.text ↔
      ¬ placed.method.returnType.LosesQualifier known placed.inner
        placed.method.typeParameters := by
  intro known symbol
  have isShortened : symbol.returnType.Shortens symbol.typeParameters ↔
      placed.method.returnType.LosesQualifier known placed.inner placed.method.typeParameters :=
    (PlacedMethod.isProper_of_mem parsed member).shortens_bind_iff
      (TypeTable.isPlaced_of_mem_heads parsed) (TypeTable.isNamed_of_mem_heads parsed)
      fun name isGeneric => List.mem_append_right _ isGeneric
  rw [BoundType.render_eq_text_iff, isShortened]

/-- A generic method whose result holds a class that is called like its parameter. -/
private def shadowedText : String :=
  "namespace N \x7b class T \x7b \x7d class A \x7b [ErrorResult(1, \"Gone\")] " ++
    "public Result<N.T> Get<T>() => null; \x7d \x7d"

/-- The class `N.T` is spelled like the parameter `T` of the method. -/
theorem PlacedMethod.spelled_in_full_iff_of_shadowed :
    ∃ unit placed, SourceUnit.parse shadowedText "A.cs" = .ok unit ∧
      PlacedMethod.ofUnits [unit] = [placed] ∧
      let known := TypeTable.heads ([unit].flatMap SourceUnit.types)
      let symbol := placed.symbol known
      symbol.returnType.text = "Result<N.T>" ∧
        symbol.returnType.render symbol.typeParameters = "Result<T>" ∧
        placed.method.returnType.LosesQualifier known placed.inner
          placed.method.typeParameters := by
  have seen : (SourceUnit.parse shadowedText "A.cs").toOption.map (fun unit =>
      (PlacedMethod.ofUnits [unit]).map fun placed =>
        let symbol := placed.symbol (TypeTable.heads ([unit].flatMap SourceUnit.types))
        (symbol.returnType.text, symbol.returnType.render symbol.typeParameters)) =
      some [("Result<N.T>", "Result<T>")] := by
    decide +kernel
  obtain ⟨unit, isUnit, parsed, isMapped⟩ := SourceUnit.exists_of_parse seen
  obtain ⟨placed, isOnly, isSeen⟩ := List.map_eq_singleton_iff.mp isMapped
  obtain ⟨isText, isSpelled⟩ := Prod.mk.inj isSeen
  refine ⟨unit, placed, isUnit, isOnly, isText, isSpelled, ?_⟩
  by_contra kept
  have same := (PlacedMethod.spelled_in_full_iff parsed
    (isOnly ▸ List.mem_cons_self : placed ∈ PlacedMethod.ofUnits [unit])).mpr kept
  rw [isSpelled, isText] at same
  exact absurd same (by decide)

end ErrorAccessors
