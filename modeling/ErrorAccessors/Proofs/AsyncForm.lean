/-
# Making a method asynchronous

A method that returns `Result<T>` may be turned into one that returns
`Task<Result<T>>`: its return type is put under a wrapper and it gets the
modifier `async`.  The accessors of the method are made from what it carries, and
that is `T` in both forms.  Whether the wrapper is declared in the files does not
matter, because only its name is looked at, and neither do aliases, because a
name with type arguments is never one.

All that a run sees of the files are their methods with the scopes they stand in.
Exchanging one method leaves the scopes and the heads of all types, and hence
what every other type means, as they were.
-/

import ErrorAccessors.Proofs.ReturnReadings
import ErrorAccessors.Proofs.UnplacedRun

namespace ErrorAccessors

section Trees

variable (method put : MethodDecl)

/-- In the second type declaration a method of the first one, at any depth, is
replaced. -/
inductive TypeDecl.Replaces : TypeDecl → TypeDecl → Prop
  | method (decl : TypeDecl) (before behind : List TypeMember) :
      Replaces { decl with members := before ++ .method method :: behind }
        { decl with members := before ++ .method put :: behind }
  | nested (decl : TypeDecl) (before behind : List TypeMember) {inner other : TypeDecl}
      (inside : Replaces inner other) :
      Replaces { decl with members := before ++ .type inner :: behind }
        { decl with members := before ++ .type other :: behind }

/-- In the second member of a namespace a method of the first one is replaced. -/
inductive NamespaceMember.Replaces : NamespaceMember → NamespaceMember → Prop
  | type {decl other : TypeDecl} (inside : decl.Replaces method put other) :
      Replaces (.type decl) (.type other)
  | space (decl : NamespaceDecl) (before behind : List NamespaceMember)
      {member other : NamespaceMember} (inside : Replaces member other) :
      Replaces (.space { decl with members := before ++ member :: behind })
        (.space { decl with members := before ++ other :: behind })

/-- In the second list of files one method of the first one is replaced. -/
inductive SourceUnit.Replaces : List SourceUnit → List SourceUnit → Prop
  | mk (front rear : List SourceUnit) (unit : SourceUnit) (before behind : List NamespaceMember)
      {member other : NamespaceMember} (inside : member.Replaces method put other) :
      Replaces (front ++ { unit with members := before ++ member :: behind } :: rear)
        (front ++ { unit with members := before ++ other :: behind } :: rear)

/-- Two declarations of a type in one scope that differ at most in the body of
the declaration, where the one method may stand for the other. -/
structure ScopedType.Replaces (type other : ScopedType) : Prop where
  scope : other.scope = type.scope
  head : DeclaredType.ofScoped other = .ofScoped type
  methods : List.Forall₂ (fun first second => second = first ∨ first = method ∧ second = put)
    type.decl.ownMethods other.decl.ownMethods

variable {method put}

theorem ScopedType.Replaces.refl (type : ScopedType) : type.Replaces method put type where
  scope := rfl
  head := rfl
  methods := List.forall₂_same.mpr fun _ _ => .inl rfl

/-- Types that did not change correspond to themselves. -/
private theorem replaces_same (types : List ScopedType) :
    List.Forall₂ (ScopedType.Replaces method put) types types :=
  List.forall₂_same.mpr fun type _ => .refl type

theorem TypeMember.scopedOfList_append (scope : Scope) (members more : List TypeMember) :
    scopedOfList scope (members ++ more) =
      scopedOfList scope members ++ scopedOfList scope more := by
  induction members with
  | nil => rfl
  | cons member rest ih =>
      cases member with
      | type decl =>
          rw [List.cons_append, scopedOfList, scopedOfList, ih, List.append_assoc]
      | method decl => rw [List.cons_append, scopedOfList, scopedOfList, ih]

theorem NamespaceMember.scopedOfList_append (scope : Scope) (members more : List NamespaceMember) :
    scopedOfList scope (members ++ more) =
      scopedOfList scope members ++ scopedOfList scope more := by
  induction members with
  | nil => rfl
  | cons member rest ih =>
      cases member with
      | space decl => rw [List.cons_append, scopedOfList, scopedOfList, ih, List.append_assoc]
      | type decl => rw [List.cons_append, scopedOfList, scopedOfList, ih, List.append_assoc]

theorem TypeDecl.Replaces.scoped {decl other : TypeDecl} (replaces : decl.Replaces method put other)
    (scope : Scope) :
    List.Forall₂ (ScopedType.Replaces method put) (decl.scoped scope) (other.scoped scope) := by
  induction replaces generalizing scope with
  | method decl before behind =>
      simp only [TypeDecl.scoped, TypeMember.scopedOfList_append, TypeMember.scopedOfList]
      refine .cons ⟨rfl, rfl, ?_⟩ (replaces_same _)
      simp only [ownMethods, List.filterMap_append, List.filterMap_cons]
      refine List.rel_append (List.forall₂_same.mpr fun _ _ => .inl rfl) ?_
      exact .cons (.inr ⟨rfl, rfl⟩) (List.forall₂_same.mpr fun _ _ => .inl rfl)
  | nested decl before behind inside ih =>
      simp only [TypeDecl.scoped, TypeMember.scopedOfList_append, TypeMember.scopedOfList]
      refine .cons ⟨rfl, rfl, ?_⟩ ?_
      · simp only [ownMethods, List.filterMap_append, List.filterMap_cons]
        exact List.forall₂_same.mpr fun _ _ => .inl rfl
      · exact List.rel_append (replaces_same _) (List.rel_append (ih _) (replaces_same _))

theorem NamespaceMember.Replaces.scoped {member other : NamespaceMember}
    (replaces : member.Replaces method put other) (scope : Scope) :
    List.Forall₂ (ScopedType.Replaces method put) (scopedOfList scope [member])
      (scopedOfList scope [other]) := by
  induction replaces generalizing scope with
  | type inside =>
      simp only [scopedOfList, List.append_nil]
      exact inside.scoped scope
  | @space decl before behind member other inside ih =>
      simp only [scopedOfList, NamespaceDecl.scoped, List.append_nil]
      rw [List.append_cons before member, List.append_cons before other]
      simp only [scopedOfList_append]
      exact List.rel_append (List.rel_append (replaces_same _) (ih _)) (replaces_same _)

/-- Replacing a method leaves the types of the files as they are, apart from that
method. -/
theorem SourceUnit.Replaces.types {units again : List SourceUnit}
    (replaces : SourceUnit.Replaces method put units again) :
    List.Forall₂ (ScopedType.Replaces method put) (units.flatMap SourceUnit.types)
      (again.flatMap SourceUnit.types) := by
  obtain @⟨front, rear, unit, before, behind, member, other, inside⟩ := replaces
  simp only [List.flatMap_append, List.flatMap_cons, SourceUnit.types]
  refine List.rel_append (replaces_same _) (List.rel_append ?_ (replaces_same _))
  rw [List.append_cons before member, List.append_cons before other]
  simp only [NamespaceMember.scopedOfList_append]
  exact List.rel_append (List.rel_append (replaces_same _) (inside.scoped _)) (replaces_same _)

end Trees

/-- What may stand in place of a method that returns a result with an argument:
the same method, asynchronous, with the result under a wrapper.  The wrapper may
be qualified, and the new return type is one that can be read. -/
structure MethodDecl.IsAsyncForm (grammar : ResultGrammar) (method put : MethodDecl) : Prop where
  result : ∃ before argument span,
    method.returnType = .named none (before ++ [⟨grammar.resultType, [argument]⟩]) span
  wrapped : ∃ before wrapper span, wrapper ∈ grammar.asyncWrappers ∧
    put.returnType = .named none (before ++ [⟨wrapper, [method.returnType]⟩]) span
  readable : put.returnType.IsProper
  modified : ∃ before behind span,
    method.modifiers = before ++ behind ∧ put.modifiers = before ++ ⟨"async", span⟩ :: behind
  otherwise : put = { method with returnType := put.returnType, modifiers := put.modifiers }

section Binding

variable {types : List DeclaredType} (scope : Scope)

/-- A name with type arguments is no type parameter and no alias. -/
private theorem BoundSegment.plain?_of_arguments (expandAlias : String → Option BoundType)
    (qualifier : Option String) (before : List BoundSegment) {last : BoundSegment}
    (generic : last.arguments ≠ []) :
    plain? scope expandAlias qualifier (before ++ [last]) = none := by
  refine Option.eq_none_iff_forall_ne_some.mpr fun type plain => generic ?_
  obtain ⟨name, -, isName, -⟩ := plain?_eq_some plain
  have isName : before ++ [last] = [] ++ [⟨name, []⟩] := isName
  obtain ⟨-, isLast⟩ := List.append_inj' isName rfl
  rw [List.singleton_inj.mp isLast]

/-- A name with type arguments that is not qualified by `::` shows its last part,
whatever it means. -/
theorem BoundSegment.resolve_of_arguments (expandAlias : String → Option BoundType)
    {before : List BoundSegment} {last : BoundSegment}
    (words : ∀ segment ∈ before ++ [last], Lexeme.IsWord segment.name.toList)
    (named : ∀ head ∈ types, head.IsNamed) (generic : last.arguments ≠ []) :
    (resolve types scope expandAlias none (before ++ [last])).head? = some last.name ∧
      (resolve types scope expandAlias none (before ++ [last])).arguments = last.arguments := by
  have noAlias : resolve types scope expandAlias none (before ++ [last]) =
      resolve types scope (fun _ => none) none (before ++ [last]) := by
    simp only [resolve, plain?_of_arguments scope _ none before generic]
  have resolves := resolves_resolve types scope (fun _ => none) none
    (List.append_ne_nil_of_right_ne_nil before (List.cons_ne_nil last []))
  obtain ⟨name, arguments, single, plain⟩ := resolves.keeps words named fun _ => rfl
  rw [noAlias]
  exact ⟨BoundType.head?_eq_some_iff.mpr
    ⟨plain, single, name, (words last (by simp)).ne_empty⟩, arguments⟩

theorem TypeExpr.bind_of_argument {before : List NameSegment} {name : String}
    {argument : TypeExpr} (span : Span)
    (proper : (named none (before ++ [⟨name, [argument]⟩]) span).IsProper)
    (named : ∀ head ∈ types, head.IsNamed) :
    let bound := (TypeExpr.named none (before ++ [⟨name, [argument]⟩]) span).bind types scope
    TypeView.head? bound = some name ∧ TypeView.arguments bound = [argument.bind types scope] := by
  intro bound
  cases proper with
  | named some words arguments =>
      have isBound : bound = BoundSegment.resolve types scope (scope.expandAlias types) none
          (before.map (NameSegment.bindWith types scope (scope.expandAlias types)) ++
            [⟨name, [argument.bind types scope]⟩]) := by
        simp only [bound, bind, bindWith_named, List.map_append, List.map_singleton]
        rfl
      have boundWords : ∀ segment ∈
          before.map (NameSegment.bindWith types scope (scope.expandAlias types)) ++
            [⟨name, [argument.bind types scope]⟩], Lexeme.IsWord segment.name.toList := by
        rw [List.forall_mem_append] at words ⊢
        exact ⟨List.forall_mem_map.mpr words.1, by simpa using words.2⟩
      obtain ⟨isHead, isArgument⟩ := BoundSegment.resolve_of_arguments scope
        (scope.expandAlias types) boundWords named (List.cons_ne_nil _ [])
      rw [← isBound] at isHead isArgument
      exact ⟨isHead, (BoundType.arguments_of_head? isHead).trans isArgument⟩

end Binding

/-- What the accessors are made from, if what is carried can be spelled. -/
theorem MethodSymbol.made_of_carried (symbol : MethodSymbol) {grammar : ResultGrammar}
    {carried : BoundType} (isCarried : (grammar.payload symbol.returnType).type? = some carried)
    (spelled : carried.render symbol.typeParameters ≠ "") :
    (symbol.returnShape grammar).map ReturnShape.made =
      .ok (some (carried.render symbol.typeParameters), symbol.typeParameters) := by
  have isSpelled : symbol.spell carried = .ok (carried.render symbol.typeParameters) :=
    if_neg spelled
  unfold returnShape
  cases payload : grammar.payload symbol.returnType with
  | void =>
      rw [payload] at isCarried
      cases isCarried
  | value type =>
      rw [payload] at isCarried
      obtain rfl : type = carried := Option.some.inj isCarried
      simp only [isSpelled]
      rfl
  | asyncValue type =>
      rw [payload] at isCarried
      obtain rfl : type = carried := Option.some.inj isCarried
      simp only [isSpelled]
      rfl

/-- A method and its asynchronous form carry the same. -/
theorem MethodDecl.IsAsyncForm.exists_carried {grammar : ResultGrammar} {method put : MethodDecl}
    (isForm : method.IsAsyncForm grammar put)
    (plain : grammar.resultType ∉ grammar.asyncWrappers) {types : List DeclaredType}
    (named : ∀ head ∈ types, head.IsNamed) (scope : Scope) :
    ∃ carried : BoundType, carried.IsProper ∧
      grammar.payload (method.returnType.bind types scope) = .value carried ∧
      grammar.payload (put.returnType.bind types scope) = .asyncValue carried := by
  obtain ⟨before, argument, span, isResult⟩ := isForm.result
  obtain ⟨front, wrapper, around, isWrapper, isWrapped⟩ := isForm.wrapped
  have readable := isForm.readable
  have inner : method.returnType.IsProper := by
    refine readable.of_view ?_
    rw [isWrapped]
    simp [TypeView.arguments]
  have isCarried : argument.IsProper := by
    refine inner.of_view ?_
    rw [isResult]
    simp [TypeView.arguments]
  rw [isWrapped] at readable
  obtain ⟨wrapperHead, wrapperArgument⟩ :=
    TypeExpr.bind_of_argument scope around readable named
  rw [← isWrapped] at wrapperHead wrapperArgument
  rw [isResult] at inner
  obtain ⟨resultHead, resultArgument⟩ :=
    TypeExpr.bind_of_argument scope span inner named
  rw [← isResult] at resultHead resultArgument
  refine ⟨argument.bind types scope,
    isCarried.bind fun head member => (named head member).isWord.ne_empty, ?_, ?_⟩
  · refine ResultGrammar.payload_eq_value_iff.mpr ⟨?_, resultArgument⟩
    refine Option.eq_none_iff_forall_ne_some.mpr fun other unwraps => plain ?_
    have isWrapper := (ResultGrammar.unwrap?_eq_some_iff.mp unwraps).1
    rwa [resultHead, Option.any_some, ResultGrammar.isWrapper, List.contains_iff_mem] at isWrapper
  · refine ResultGrammar.payload_eq_asyncValue_iff.mpr ⟨_, ?_, resultArgument⟩
    refine ResultGrammar.unwrap?_eq_some_iff.mpr ⟨?_, wrapperArgument⟩
    rw [wrapperHead, Option.any_some, ResultGrammar.isWrapper, List.contains_iff_mem]
    exact isWrapper

/-- Exchanging a method for its asynchronous form lets all methods go in step. -/
theorem PlacedMethod.inStep_of_replaces {grammar : ResultGrammar} {method put : MethodDecl}
    (isForm : method.IsAsyncForm grammar put)
    (plain : grammar.resultType ∉ grammar.asyncWrappers) {known : List DeclaredType}
    (named : ∀ head ∈ known, head.IsNamed) (marker : Marker) {type other : ScopedType}
    (types : type.Replaces method put other) {first second : MethodDecl}
    (methods : second = first ∨ first = method ∧ second = put) :
    (PlacedMethod.mk type first).InStep id marker grammar known known ⟨other, second⟩ := by
  have declared := types.head
  have name : other.decl.name = type.decl.name := congrArg DeclaredType.name declared
  have fullName : other.fullName = type.fullName := congrArg DeclaredType.fullName declared
  have parameters : other.decl.typeParameters = type.decl.typeParameters :=
    congrArg DeclaredType.typeParameters declared
  have inScope (changed : MethodDecl) :
      (PlacedMethod.mk other changed).inner = (PlacedMethod.mk type changed).inner := by
    simp only [inner, types.scope, name, parameters]
  have sameSite (changed : MethodDecl) (isNamed : changed.name = first.name)
      (stands : changed.nameSpan = first.nameSpan) :
      (PlacedMethod.mk other changed).site = (PlacedMethod.mk type first).site := by
    simp only [site, ScopedType.siteOf, types.scope, name, fullName, isNamed, stands]
  rcases methods with rfl | ⟨rfl, rfl⟩
  · exact inStep_of_head types.scope types.head second marker grammar known
  · have otherwise := isForm.otherwise
    have lists : second.attributeLists = first.attributeLists := by rw [otherwise]
    have ownParameters : second.typeParameters = first.typeParameters := by rw [otherwise]
    refine .of_symbol (sameSite second (by rw [otherwise]) (by rw [otherwise]))
      (congrArg Scope.unplaced types.scope) ?_ ?_
    · show (second.attributes.map AppliedAttribute.ofAttribute) =
        (first.attributes.map AppliedAttribute.ofAttribute).map (AppliedAttribute.relocated id)
      rw [MethodDecl.attributes, lists]
      exact (List.map_id _).symm
    · have sameInner :
          (PlacedMethod.mk other second).inner = (PlacedMethod.mk type first).inner := by
        rw [inScope, inner, inner, ownParameters]
      obtain ⟨carried, proper, value, asyncValue⟩ :=
        isForm.exists_carried plain named (PlacedMethod.mk type first).inner
      have carries :
          (grammar.payload ((PlacedMethod.mk type first).symbol known).returnType).type? =
          some carried := by
        rw [symbol_returnType, value]
        rfl
      have otherCarries :
          (grammar.payload ((PlacedMethod.mk other second).symbol known).returnType).type? =
            some carried := by
        rw [symbol_returnType, sameInner, asyncValue]
        rfl
      rw [MethodSymbol.made_of_carried _ carries (proper.render_ne_empty _),
        MethodSymbol.made_of_carried _ otherCarries (proper.render_ne_empty _)]
      show Except.ok (some (carried.render second.typeParameters), second.typeParameters) = _
      rw [ownParameters]
      rfl

/-- Replacing the return type `Result<T>` of a method by a wrapper around it and
making the method asynchronous changes nothing in a run: not the artifacts, their
keys, names, texts and order, and not the faults and warnings.  If the files are
read again, so that places have moved, that still holds up to places. -/
theorem Generation.run_of_asyncForm {units again : List SourceUnit}
    (parsed : ∀ unit ∈ units, unit.IsParsed) (settings : Settings)
    (plain : settings.grammar.resultType ∉ settings.grammar.asyncWrappers)
    {method put : MethodDecl} (isForm : method.IsAsyncForm settings.grammar put)
    (replaces : SourceUnit.Replaces method put units again) :
    run (.ofUnits again) settings = run (.ofUnits units) settings ∧
      ∀ reread : List SourceUnit,
        reread.map SourceUnit.unplaced = again.map SourceUnit.unplaced →
          (run (.ofUnits reread) settings).artifacts = (run (.ofUnits units) settings).artifacts ∧
          (run (.ofUnits reread) settings).relocated (fun _ => .nowhere) =
            (run (.ofUnits units) settings).relocated fun _ => .nowhere := by
  have named := TypeTable.isNamed_of_mem_heads parsed
  have heads : TypeTable.heads (again.flatMap SourceUnit.types) =
      TypeTable.heads (units.flatMap SourceUnit.types) :=
    TypeTable.heads_eq_of_forall₂ replaces.types fun _ _ types => types.head
  have inStep : List.Forall₂
      (PlacedMethod.InStep id settings.marker settings.grammar
        (TypeTable.heads (units.flatMap SourceUnit.types))
        (TypeTable.heads (again.flatMap SourceUnit.types)))
      (PlacedMethod.ofUnits units) (PlacedMethod.ofUnits again) := by
    rw [heads]
    refine List.rel_flatMap replaces.types fun type other types => ?_
    rw [PlacedMethod.ofType, PlacedMethod.ofType, List.forall₂_map_left_iff,
      List.forall₂_map_right_iff]
    exact types.methods.imp fun _ _ =>
      PlacedMethod.inStep_of_replaces isForm plain named settings.marker types
  have same : run (.ofUnits again) settings = run (.ofUnits units) settings := by
    rw [run_inStep inStep, GenerationReport.relocated_id]
  refine ⟨same, fun reread sameText => ?_⟩
  have moved : (run (.ofUnits reread) settings).relocated (fun _ => .nowhere) =
      (run (.ofUnits units) settings).relocated fun _ => .nowhere := by
    rw [← run_unplaced, sameText, run_unplaced, same]
  refine ⟨?_, moved⟩
  have artifacts := congrArg GenerationReport.artifacts moved
  rwa [GenerationReport.relocated_artifacts, GenerationReport.relocated_artifacts] at artifacts

/-- A class with one method, which returns a result with an argument. -/
private def findText : String :=
  "class Api \x7b [ErrorResult(1, \"lost\")] Result<Loot> Find() => null; \x7d"

/-- The only method of a file that declares one type with one method in it. -/
private def SourceUnit.onlyMethod? (unit : SourceUnit) : Option (TypeDecl × MethodDecl) :=
  match unit.members with
  | [.type decl] =>
    match decl.members with
    | [.method method] => some (decl, method)
    | _ => none
  | _ => none

/-- The only method of a file can be replaced. -/
private theorem SourceUnit.replaces_of_onlyMethod? {unit : SourceUnit} {decl : TypeDecl}
    {method : MethodDecl} (isOnly : unit.onlyMethod? = some (decl, method)) (put : MethodDecl) :
    SourceUnit.Replaces method put [unit]
      [{ unit with members := [.type { decl with members := [.method put] }] }] := by
  obtain ⟨path, span, usings, members⟩ := unit
  unfold onlyMethod? at isOnly
  split at isOnly
  · next only isMembers =>
    split at isOnly
    · next found isOwn =>
      cases isOnly
      obtain rfl : members = _ := isMembers
      have isDecl : ({ decl with members := [] ++ .method method :: [] } : TypeDecl) = decl := by
        rw [List.nil_append, ← isOwn]
        cases decl
        rfl
      have replaced : TypeDecl.Replaces method put
          { decl with members := [] ++ .method method :: [] }
          { decl with members := [] ++ .method put :: [] } := .method decl [] []
      rw [isDecl] at replaced
      exact .mk [] [] ⟨path, span, usings, []⟩ [] [] (.type replaced)
    · cases isOnly
  · cases isOnly

/-- The words of a type that is one word with one word as its argument. -/
private def TypeExpr.wordOfWord? : TypeExpr → Option (String × String)
  | .named none [⟨name, [.named none [⟨carried, []⟩] _]⟩] _ => some (name, carried)
  | _ => none

/-- A word with proper type arguments is a proper type. -/
private theorem TypeExpr.isProper_of_word {name : String} {arguments : List TypeExpr} {span : Span}
    (isWord : Lexeme.IsWord name.toList) (proper : ∀ argument ∈ arguments, argument.IsProper) :
    (named none [⟨name, arguments⟩] span).IsProper :=
  .named (List.cons_ne_nil _ _) (List.forall_mem_singleton.mpr isWord)
    (List.forall_mem_singleton.mpr proper)

/-- `async Task<Result<Loot>> Find()` in place of `Result<Loot> Find()`: the six
artifacts stay what they were. -/
theorem Generation.run_of_asyncForm_find :
    ∃ unit again method put, SourceUnit.parse findText "Api.cs" = .ok unit ∧
      MethodDecl.IsAsyncForm {} method put ∧ SourceUnit.Replaces method put [unit] [again] ∧
      (run (.ofUnits [unit]) {}).artifacts.length = 6 ∧
      run (.ofUnits [again]) {} = run (.ofUnits [unit]) {} := by
  have seen : (SourceUnit.parse findText "Api.cs").toOption.map (fun unit =>
      (unit.onlyMethod?.map (fun only =>
          (only.2.returnType.wordOfWord?, only.2.modifiers.length)),
        (run (.ofUnits [unit]) {}).artifacts.length)) =
      some (some (some ("Result", "Loot"), 0), 6) := by
    decide +kernel
  obtain ⟨unit, isUnit, parsed, isSeen⟩ := SourceUnit.exists_of_parse seen
  simp only [Prod.mk.injEq, Option.map_eq_some_iff] at isSeen
  obtain ⟨⟨⟨decl, method⟩, isOnly, isResult, noModifier⟩, made⟩ := isSeen
  unfold TypeExpr.wordOfWord? at isResult
  split at isResult
  · next name carried inner outer isType =>
    cases isResult
    let put : MethodDecl :=
      { method with
        returnType := .named none [⟨"Task", [method.returnType]⟩] .nowhere
        modifiers := [⟨"async", .nowhere⟩] }
    have isWord (name : String) (isOne : name ∈ ["Task", "Result", "Loot"]) :
        Lexeme.IsWord name.toList := by
      rw [Lexeme.isWord_iff]
      revert name
      decide
    have isForm : MethodDecl.IsAsyncForm {} method put := {
      result := ⟨[], _, _, isType⟩
      wrapped := ⟨[], "Task", _, by decide, rfl⟩
      readable := by
        show (TypeExpr.named none [⟨"Task", [method.returnType]⟩] .nowhere).IsProper
        rw [isType]
        refine TypeExpr.isProper_of_word (isWord "Task" (by decide))
          (List.forall_mem_singleton.mpr ?_)
        refine TypeExpr.isProper_of_word (isWord "Result" (by decide))
          (List.forall_mem_singleton.mpr ?_)
        exact TypeExpr.isProper_of_word (isWord "Loot" (by decide)) (List.forall_mem_nil _)
      modified := ⟨[], [], .nowhere, List.eq_nil_of_length_eq_zero noModifier, rfl⟩
      otherwise := rfl }
    have replaces := SourceUnit.replaces_of_onlyMethod? isOnly put
    obtain ⟨same, -⟩ := Generation.run_of_asyncForm parsed {} (by decide) isForm replaces
    exact ⟨unit, _, method, put, isUnit, isForm, replaces, made, same⟩
  · cases isResult

end ErrorAccessors
