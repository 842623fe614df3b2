/-
# How checking and generating read a return type

A method is checked by its return type as it is written and generated for by the
bound one.  The grammar compares names by their last part, and binding keeps the
last part of a name together with its type arguments: a declaration is found
only under a full name that ends with it.

There is one exception.  A name of one part behind `::` that nothing is declared
under keeps its qualifier in the name itself, and no name of a grammar is of that
form.  Both readings of a return type agree unless such a name stands where the
grammar expects a wrapper or a result.
-/

import ErrorAccessors.Proofs.ProperBinding

namespace ErrorAccessors

/-- A name of one part behind `::` that nothing is declared under. -/
def TypeExpr.staysQualified (known : List DeclaredType) : TypeExpr → Bool
  | .named (some _) [segment] _ => known.all fun head => head.fullName != segment.name
  | _ => false

/-- What a full name says about a declaration: it ends with the name, which is a
word. -/
structure DeclaredType.IsNamed (head : DeclaredType) : Prop where
  isWord : Lexeme.IsWord head.name.toList
  ends : Text.EndsWithPart head.fullName head.name

namespace BoundSegment

variable {types : List DeclaredType} {scope : Scope} {expandAlias : String → Option BoundType}
  {qualifier : Option String} {before : List BoundSegment} {last : BoundSegment}

/-- A joined name of words ends with the last one. -/
theorem endsWithPart_names (before : List BoundSegment) (isWord : Lexeme.IsWord last.name.toList) :
    Text.EndsWithPart (Text.joinDotted ((before ++ [last]).map BoundSegment.name)) last.name := by
  rw [List.map_append]
  exact Text.endsWithPart_joinDotted _ isWord.ne_empty

/-- The declaration that a name means is called like the last part of the name. -/
theorem name_of_declared? {head : DeclaredType} (named : ∀ head ∈ types, head.IsNamed)
    (isWord : Lexeme.IsWord last.name.toList)
    (found : declared? types scope qualifier (before ++ [last]) = some head) :
    head.name = last.name := by
  have endsWritten := endsWithPart_names before isWord
  have nonempty : Text.joinDotted ((before ++ [last]).map BoundSegment.name) ≠ "" := by
    intro empty
    obtain ⟨front, parts, -⟩ := endsWritten
    rw [empty, eq_comm, String.append_eq_empty_iff] at parts
    exact isWord.ne_empty parts.2
  obtain ⟨member, ends⟩ := declared?_eq_some found nonempty
  exact (named head member).ends.unique (ends.trans endsWritten)
    (named head member).isWord.dot_notMem isWord.dot_notMem

/-- A qualified name of one part means what is declared under that name. -/
theorem declared?_single_eq_none (word : String) (isWord : Lexeme.IsWord last.name.toList) :
    declared? types scope (some word) [last] = none ↔
      (types.all fun head => head.fullName != last.name) = true := by
  have joined : Text.joinDotted [last.name] = last.name := by
    simp [Text.joinDotted, isWord.ne_empty]
  simp [declared?, joined]

/-- Where a name of one part behind `::` means nothing that is declared, it keeps
its qualifier; otherwise the name of a type is the last part of the name that it
was written with. -/
def keptName (types : List DeclaredType) (qualifier : Option String) (before : List BoundSegment)
    (last : BoundSegment) : String :=
  match qualifier, before with
  | some word, [] =>
    if types.all fun head => head.fullName != last.name then word ++ "::" ++ last.name
    else last.name
  | _, _ => last.name

theorem keptName_eq (types : List DeclaredType) (qualifier : Option String)
    (before : List BoundSegment) (last : BoundSegment) :
    keptName types qualifier before last = last.name ∨
      ∃ word, qualifier = some word ∧ before = [] ∧
        (types.all fun head => head.fullName != last.name) = true ∧
        keptName types qualifier before last = word ++ "::" ++ last.name := by
  unfold keptName
  split
  · next word =>
    split
    · next undeclared => exact .inr ⟨word, rfl, rfl, undeclared, rfl⟩
    · exact .inl rfl
  · exact .inl rfl

/-- A name that is declared nowhere is kept. -/
theorem asWritten_name (isWord : Lexeme.IsWord last.name.toList)
    (words : ∀ segment ∈ before, segment.name ≠ "")
    (undeclared : declared? types scope qualifier (before ++ [last]) = none) :
    (asWritten qualifier before last).name = keptName types qualifier before last := by
  cases qualifier with
  | none => rfl
  | some word =>
      cases before with
      | nil => exact (if_pos ((declared?_single_eq_none word isWord).mp undeclared)).symm
      | cons first rest =>
          have nonempty : first.text ≠ "" := by
            unfold text
            split <;> simp [words first List.mem_cons_self]
          have written : ".".intercalate ((first :: rest).map text) ≠ "" := by
            cases rest with
            | nil => simpa using nonempty
            | cons second others => simp [String.intercalate_cons_cons]
          exact if_neg written

/-- Without aliases, the type that a name means has the type arguments of the last
part and its name, with the qualifier where that is kept. -/
theorem Resolves.keeps {type : BoundType}
    (resolves : Resolves types scope expandAlias qualifier (before ++ [last]) type)
    (words : ∀ segment ∈ before ++ [last], Lexeme.IsWord segment.name.toList)
    (named : ∀ head ∈ types, head.IsNamed) (noAlias : ∀ name, expandAlias name = none) :
    type.name = keptName types qualifier before last ∧ type.arguments = last.arguments ∧
      type.elements = [] ∧ type.suffix = "" := by
  generalize isName : before ++ [last] = segments at resolves
  have isWord : Lexeme.IsWord last.name.toList := words last (by simp)
  cases resolves with
  | parameter known =>
      have isName : before ++ [last] = [] ++ [_] := isName
      obtain ⟨rfl, isLast⟩ := List.append_inj' isName rfl
      cases isLast
      exact ⟨rfl, rfl, rfl, rfl⟩
  | aliased unknown expands =>
      rw [noAlias] at expands
      cases expands
  | declared notPlain found =>
      obtain ⟨rfl, isLast⟩ := List.append_inj' isName rfl
      cases isLast
      refine ⟨?_, rfl, rfl, rfl⟩
      rcases keptName_eq types qualifier before last with kept | ⟨word, rfl, rfl, undeclared, -⟩
      · exact (name_of_declared? named isWord found).trans kept.symm
      · have missing : declared? types scope (some word) [last] = none :=
          (declared?_single_eq_none word isWord).mpr undeclared
        rw [List.nil_append, missing] at found
        cases found
  | written notPlain undeclared =>
      obtain ⟨rfl, isLast⟩ := List.append_inj' isName rfl
      cases isLast
      refine ⟨asWritten_name isWord (fun segment front => ?_) undeclared, rfl, rfl, rfl⟩
      exact (words segment (List.mem_append_left _ front)).ne_empty

end BoundSegment

namespace TypeExpr

variable {types : List DeclaredType} {scope : Scope} {expandAlias : String → Option BoundType}

/-- What the grammar sees of a type, it also sees of the bound type, but for the
qualifier that is kept in a name. -/
structure IsSeenThrough (types : List DeclaredType) (view : TypeExpr → BoundType)
    (type : TypeExpr) : Prop where
  arguments : TypeView.KeepsArguments view type
  head : type.staysQualified types = false →
    TypeView.head? (view type) = TypeView.head? type
  qualified : type.staysQualified types = true →
    ∃ word name, TypeView.head? (view type) = some (word ++ "::" ++ name)

/-- A type without a head is bound to one without a head. -/
private theorem isSeenThrough_of_hidden {view : TypeExpr → BoundType} {type : TypeExpr}
    (hidden : TypeView.head? type = none) (bare : TypeView.arguments type = [])
    (dropped : type.staysQualified types = false) (bound : (view type).head? = none) :
    type.IsSeenThrough types view where
  arguments := by
    rw [TypeView.KeepsArguments, bare, BoundType.arguments_of_head?_eq_none bound]
    rfl
  head _ := bound.trans hidden.symm
  qualified stays := by
    rw [dropped] at stays
    cases stays

theorem arraySuffix_ne_empty (rank : Nat) : arraySuffix rank ≠ "" := by
  simp [arraySuffix]

/-- A qualifier is kept in the name just where `staysQualified` says so. -/
private theorem staysQualified_named (types : List DeclaredType) (qualifier : Option String)
    (before : List NameSegment) (last : NameSegment) (span : Span)
    (view : NameSegment → BoundSegment)
    (sameName : ∀ segment, (view segment).name = segment.name) :
    ((named qualifier (before ++ [last]) span).staysQualified types = false →
        BoundSegment.keptName types qualifier (before.map view) (view last) = last.name) ∧
      ((named qualifier (before ++ [last]) span).staysQualified types = true →
        ∃ word, BoundSegment.keptName types qualifier (before.map view) (view last) =
          word ++ "::" ++ last.name) := by
  cases qualifier with
  | none => exact ⟨fun _ => sameName last, nofun⟩
  | some word =>
      cases before with
      | cons first rest =>
          have dropped : (named (some word) (first :: rest ++ [last]) span).staysQualified types =
              false := by
            cases rest <;> rfl
          refine ⟨fun _ => sameName last, fun stays => ?_⟩
          rw [dropped] at stays
          cases stays
      | nil =>
          simp only [BoundSegment.keptName, List.map_nil, sameName]
          refine ⟨fun dropped => if_neg ?_, fun stays => ⟨word, if_pos stays⟩⟩
          exact Bool.eq_false_iff.mp dropped

/-- What the grammar sees of a name of words, it also sees of what the name
means. -/
private theorem isSeenThrough_named {before : List NameSegment} {last : NameSegment}
    (qualifier : Option String) (span : Span)
    (words : ∀ segment ∈ before ++ [last], Lexeme.IsWord segment.name.toList)
    (isNamed : ∀ head ∈ types, head.IsNamed) (noAlias : ∀ name, expandAlias name = none) :
    (named qualifier (before ++ [last]) span).IsSeenThrough types
      (TypeExpr.bindWith types scope expandAlias) := by
  let view := NameSegment.bindWith types scope expandAlias
  let kept := BoundSegment.keptName types qualifier (before.map view) (view last)
  have resolves := BoundSegment.resolves_resolve types scope expandAlias qualifier
    (List.append_ne_nil_of_right_ne_nil (before.map view) (List.cons_ne_nil (view last) []))
  have bound : (named qualifier (before ++ [last]) span).bindWith types scope expandAlias =
      BoundSegment.resolve types scope expandAlias qualifier (before.map view ++ [view last]) := by
    rw [bindWith_named, List.map_append, List.map_singleton]
  rw [← bound] at resolves
  have boundWords : ∀ segment ∈ before.map view ++ [view last],
      Lexeme.IsWord segment.name.toList := by
    rw [← List.map_singleton, ← List.map_append]
    exact List.forall_mem_map.mpr words
  obtain ⟨isName, arguments, single, plain⟩ := resolves.keeps boundWords isNamed noAlias
  have nonempty : kept ≠ "" := by
    rcases BoundSegment.keptName_eq types qualifier (before.map view) (view last) with
      isLast | ⟨word, -, -, -, isQualified⟩
    · rw [show kept = last.name from isLast]
      exact (words last (by simp)).ne_empty
    · rw [show kept = word ++ "::" ++ last.name from isQualified]
      simp
  have isHead : (TypeExpr.bindWith types scope expandAlias
      (named qualifier (before ++ [last]) span)).head? = some kept :=
    BoundType.head?_eq_some_iff.mpr ⟨plain, single, isName, nonempty⟩
  have written : TypeView.head? (named qualifier (before ++ [last]) span) = some last.name ∧
      TypeView.arguments (named qualifier (before ++ [last]) span) = last.arguments := by
    simp [TypeView.head?, TypeView.arguments]
  obtain ⟨dropped, stays⟩ :=
    staysQualified_named types qualifier before last span view fun _ => rfl
  refine ⟨?_, fun isDropped => ?_, fun isStaying => ?_⟩
  · rw [TypeView.KeepsArguments, written.2, BoundType.arguments_of_head? isHead, arguments]
    rfl
  · rw [written.1, ← dropped isDropped]
    exact isHead
  · obtain ⟨word, isQualified⟩ := stays isStaying
    exact ⟨word, last.name, isHead.trans (congrArg some isQualified)⟩

/-- Binding a proper type without aliases in scope keeps what the grammar sees. -/
theorem IsProper.isSeenThrough {type : TypeExpr} (proper : type.IsProper)
    (named : ∀ head ∈ types, head.IsNamed) (noAlias : ∀ name, expandAlias name = none) :
    type.IsSeenThrough types (TypeExpr.bindWith types scope expandAlias) := by
  cases proper with
  | @predefined keyword span known =>
      have nonempty : keyword ≠ "" := by
        rintro rfl
        simp [keywords] at known
      have isHead : (BoundType.simple keyword).head? = some keyword :=
        BoundType.head?_eq_some_iff.mpr ⟨rfl, rfl, rfl, nonempty⟩
      refine ⟨?_, fun _ => ?_, fun stays => by cases stays⟩
      · rw [TypeView.KeepsArguments, bindWith_predefined]
        exact BoundType.arguments_of_head? isHead
      · rw [bindWith_predefined]
        exact isHead
  | nullable inner =>
      refine isSeenThrough_of_hidden rfl rfl rfl ?_
      rw [bindWith_nullable]
      exact BoundType.head?_withSuffix _ (by decide)
  | pointer inner =>
      refine isSeenThrough_of_hidden rfl rfl rfl ?_
      rw [bindWith_pointer]
      exact BoundType.head?_withSuffix _ (by decide)
  | array element =>
      refine isSeenThrough_of_hidden rfl rfl rfl ?_
      rw [bindWith_array]
      exact BoundType.head?_withSuffix _ (arraySuffix_ne_empty _)
  | @tuple elements span some _ =>
      refine isSeenThrough_of_hidden rfl rfl rfl ?_
      rw [bindWith_tuple]
      refine Option.eq_none_iff_forall_ne_some.mpr fun name isHead => some ?_
      exact List.map_eq_nil_iff.mp (BoundType.head?_eq_some_iff.mp isHead).2.1
  | @named qualifier segments span some words _ =>
      obtain ⟨before, last, rfl⟩ : ∃ before last, segments = before ++ [last] :=
        ⟨segments.dropLast, segments.getLast some, (List.dropLast_append_getLast some).symm⟩
      exact isSeenThrough_named qualifier span words named noAlias

end TypeExpr

/-- The arguments that a proper type shows are proper. -/
theorem TypeExpr.IsProper.of_view {type argument : TypeExpr} (proper : type.IsProper)
    (member : argument ∈ TypeView.arguments type) : argument.IsProper := by
  cases proper with
  | named some words arguments =>
      change argument ∈ (Option.map NameSegment.arguments (List.getLast? _)).getD [] at member
      rw [List.getLast?_eq_some_getLast some] at member
      exact arguments _ (List.getLast_mem some) argument member
  | predefined | nullable | pointer | array | tuple => cases member

namespace ResultGrammar

/-- No name of the grammar holds a colon. -/
structure IsPlain (grammar : ResultGrammar) : Prop where
  result : ':' ∉ grammar.resultType.toList
  wrappers : ∀ wrapper ∈ grammar.asyncWrappers, ':' ∉ wrapper.toList

theorem isPlain_default : IsPlain {} where
  result := by decide
  wrappers := by simp

/-- A name with its qualifier is neither that of a wrapper nor that of a result. -/
theorem IsPlain.of_qualified {grammar : ResultGrammar} (plain : grammar.IsPlain)
    {type : BoundType} {word name : String}
    (isHead : TypeView.head? type = some (word ++ "::" ++ name)) :
    grammar.unwrap? type = none ∧ grammar.isResult type = false := by
  have colon : ':' ∈ (word ++ "::" ++ name).toList := by simp
  constructor
  · refine Option.eq_none_iff_forall_ne_some.mpr fun inner unwraps => ?_
    have isWrapper := (unwrap?_eq_some_iff.mp unwraps).1
    rw [isHead, Option.any_some, ResultGrammar.isWrapper, List.contains_iff_mem] at isWrapper
    exact plain.wrappers _ isWrapper colon
  · refine Bool.eq_false_iff.mpr fun isResult => ?_
    simp only [ResultGrammar.isResult, isHead, Bool.and_eq_true, beq_iff_eq, Option.some.injEq]
      at isResult
    exact plain.result (isResult.1 ▸ colon)

end ResultGrammar

/-- No alias is in scope. -/
def Scope.HasNoAlias (scope : Scope) : Prop :=
  ∀ directive ∈ scope.usings, ∀ introduced target, directive.kind ≠ .ofAlias introduced target

theorem Scope.HasNoAlias.expandAlias {scope : Scope} (noAlias : scope.HasNoAlias)
    (types : List DeclaredType) (name : String) : scope.expandAlias types name = none := by
  have noTarget : scope.aliasTarget? name = none := by
    refine List.findSome?_eq_none_iff.mpr fun directive member => ?_
    split
    · next introduced target isAlias => exact absurd isAlias (noAlias directive member _ _)
    · rfl
  rw [Scope.expandAlias, noTarget]
  rfl

/-- The declarations of parsed files are found under names that end with theirs. -/
theorem TypeTable.isNamed_of_mem_heads {units : List SourceUnit}
    (parsed : ∀ unit ∈ units, unit.IsParsed) :
    ∀ head ∈ heads (units.flatMap SourceUnit.types), head.IsNamed := by
  intro head member
  have isWord := isWord_of_mem_heads parsed head member
  refine ⟨isWord, ?_⟩
  obtain ⟨type, -, rfl⟩ := exists_of_mem_heads member
  exact Text.endsWithPart_joinDotted (type.scope.space :: type.scope.containers) isWord.ne_empty

/-- Without aliases in scope, checking and generating read the return type of a
method alike if neither the type nor what stands under its wrapper is a name that
keeps its qualifier.  For a grammar whose names hold no colon that is needed just
where the grammar expects something: the type must not be called like a wrapper or
a result behind `::`, and neither must the type under its wrapper be called like a
result. -/
theorem PlacedMethod.readsAlike_iff {units : List SourceUnit}
    (parsed : ∀ unit ∈ units, unit.IsParsed) {placed : PlacedMethod}
    (member : placed ∈ PlacedMethod.ofUnits units) (noAlias : placed.type.scope.HasNoAlias)
    (grammar : ResultGrammar) :
    let known := TypeTable.heads (units.flatMap SourceUnit.types)
    let written := placed.method.returnType
    let view := fun type : TypeExpr => type.bind known placed.inner
    (placed.symbol known).returnExpr = written ∧ (placed.symbol known).returnType = view written ∧
      (written.staysQualified known = false →
        (∀ inner, grammar.unwrap? written = some inner → inner.staysQualified known = false) →
        ReadsAlike grammar view written) ∧
      (grammar.IsPlain →
        (ReadsAlike grammar view written ↔
          (written.staysQualified known = true →
            grammar.unwrap? written = none ∧ grammar.isResult written = false) ∧
          ∀ inner, grammar.unwrap? written = some inner → inner.staysQualified known = true →
            grammar.isResult inner = false)) := by
  intro known written view
  have proper := PlacedMethod.isProper_of_mem parsed member
  have named := TypeTable.isNamed_of_mem_heads parsed
  have noAlias : placed.inner.HasNoAlias := noAlias
  have seen {type : TypeExpr} (proper : type.IsProper) : type.IsSeenThrough known view :=
    proper.isSeenThrough named (noAlias.expandAlias known)
  have properInner {inner : TypeExpr} (unwraps : grammar.unwrap? written = some inner) :
      inner.IsProper :=
    proper.of_view ((ResultGrammar.unwrap?_eq_some_iff.mp unwraps).2 ▸ List.mem_cons_self)
  have whole := seen proper
  -- under a wrapper that is seen, only the verdict about the inner type is open
  have unqualified (dropped : written.staysQualified known = false) :
      ReadsAlike grammar view written ↔
        ∀ inner, grammar.unwrap? written = some inner →
          grammar.isResult (view inner) = grammar.isResult inner :=
    ResultGrammar.readsAlike_iff_of_head (whole.head dropped) whole.arguments
      fun inner unwraps => (seen (properInner unwraps)).arguments
  have agree {inner : TypeExpr} (unwraps : grammar.unwrap? written = some inner)
      (dropped : inner.staysQualified known = false) :
      grammar.isResult (view inner) = grammar.isResult inner :=
    ResultGrammar.isResult_view ((seen (properInner unwraps)).head dropped)
      (seen (properInner unwraps)).arguments
  refine ⟨rfl, rfl, fun dropped inside => ?_, fun plain => ?_⟩
  · exact (unqualified dropped).mpr fun inner unwraps => agree unwraps (inside inner unwraps)
  · cases stays : written.staysQualified known with
    | true =>
        obtain ⟨word, name, isHead⟩ := whole.qualified stays
        obtain ⟨noWrapper, noResult⟩ := plain.of_qualified isHead
        rw [ResultGrammar.readsAlike_iff_of_foreign noWrapper noResult whole.arguments]
        refine ⟨fun neither => ⟨fun _ => neither, fun inner unwraps => ?_⟩, fun both => both.1 rfl⟩
        rw [neither.1] at unwraps
        cases unwraps
    | false =>
        rw [unqualified stays]
        refine ⟨fun results => ⟨nofun, fun inner unwraps isQualified => ?_⟩,
          fun both inner unwraps => ?_⟩
        · obtain ⟨word, name, isHead⟩ := (seen (properInner unwraps)).qualified isQualified
          exact (results inner unwraps).symm.trans (plain.of_qualified isHead).2
        · cases isQualified : inner.staysQualified known with
          | false => exact agree unwraps isQualified
          | true =>
              obtain ⟨word, name, isHead⟩ := (seen (properInner unwraps)).qualified isQualified
              rw [(plain.of_qualified isHead).2, both.2 inner unwraps isQualified]

/-- A method that returns a wrapped result, the wrapper found from the root. -/
private def qualifiedText : String :=
  "class Api \x7b [ErrorResult(1, \"Gone\")] public global::Task<Result> Get() => null; \x7d"

/-- A wrapper behind `::` is seen as one in the written type alone. -/
theorem PlacedMethod.readsAlike_iff_of_qualified :
    ∃ unit placed, SourceUnit.parse qualifiedText "Api.cs" = .ok unit ∧
      PlacedMethod.ofUnits [unit] = [placed] ∧ placed.type.scope.HasNoAlias ∧
      ¬ ReadsAlike {} (fun type : TypeExpr =>
        type.bind (TypeTable.heads ([unit].flatMap SourceUnit.types)) placed.inner)
        placed.method.returnType := by
  have seen : (SourceUnit.parse qualifiedText "Api.cs").toOption.map (fun unit =>
      (PlacedMethod.ofUnits [unit]).map fun placed =>
        (placed.type.scope.usings,
          placed.method.returnType.staysQualified
            (TypeTable.heads ([unit].flatMap SourceUnit.types)),
          (ResultGrammar.unwrap? {} placed.method.returnType).isSome)) =
      some [([], true, true)] := by
    decide +kernel
  obtain ⟨unit, isUnit, parsed, isMapped⟩ := SourceUnit.exists_of_parse seen
  obtain ⟨placed, isOnly, isSeen⟩ := List.map_eq_singleton_iff.mp isMapped
  simp only [Prod.mk.injEq] at isSeen
  obtain ⟨noUsings, stays, unwraps⟩ := isSeen
  have noAlias : placed.type.scope.HasNoAlias := by
    rw [Scope.HasNoAlias, noUsings]
    exact List.forall_mem_nil _
  obtain ⟨-, -, -, alikeIff⟩ := PlacedMethod.readsAlike_iff parsed
    (isOnly ▸ List.mem_cons_self : placed ∈ PlacedMethod.ofUnits [unit]) noAlias {}
  refine ⟨unit, placed, isUnit, isOnly, noAlias, fun alike => ?_⟩
  have unwrapped := (((alikeIff ResultGrammar.isPlain_default).mp alike).1 stays).1
  rw [unwrapped] at unwraps
  cases unwraps

end ErrorAccessors
