/-
# Which type parameters a payload mentions

The accessors of a method are generic in the parameters of the method and of
nothing else, and the class that they stand in is not generic.  A payload that
mentions a parameter of an enclosing type is therefore spelled with a name that
the generated source does not declare.

This module says exactly when that happens.  The parameters in a bound type are
the plain names of the written one that are parameters in scope, whatever
surrounds them, except in the type arguments of a qualifier, which are kept as
text or dropped.  Reading the payload off the return type loses none of them.
So a payload is spelled with the method's own parameters just if no plain name
in the return type is a parameter of an enclosing type alone.
-/

import ErrorAccessors.Proofs.ProperBinding

namespace ErrorAccessors

mutual

/-- The plain names in a type: those without qualifier and type arguments.  The
type arguments of a qualifier are looked into only if asked for. -/
def TypeExpr.plainNames (inQualifiers : Bool) : TypeExpr → List String
  | .predefined _ _ => []
  | .nullable inner _ => inner.plainNames inQualifiers
  | .pointer inner _ => inner.plainNames inQualifiers
  | .array element _ _ => element.plainNames inQualifiers
  | .tuple elements _ => TupleElement.plainNamesOfList inQualifiers elements
  | .named none [⟨name, []⟩] _ => [name]
  | .named _ segments _ => NameSegment.plainNamesOfList inQualifiers segments

/-- The plain names in some types. -/
def TypeExpr.plainNamesOfList (inQualifiers : Bool) : List TypeExpr → List String
  | [] => []
  | type :: rest => type.plainNames inQualifiers ++ TypeExpr.plainNamesOfList inQualifiers rest

/-- The plain names in the type arguments of a dotted name. -/
def NameSegment.plainNamesOfList (inQualifiers : Bool) : List NameSegment → List String
  | [] => []
  | [⟨_, arguments⟩] => TypeExpr.plainNamesOfList inQualifiers arguments
  | ⟨_, arguments⟩ :: next :: rest =>
    (if inQualifiers then TypeExpr.plainNamesOfList inQualifiers arguments else []) ++
      NameSegment.plainNamesOfList inQualifiers (next :: rest)

/-- The plain names in the elements of a tuple. -/
def TupleElement.plainNamesOfList (inQualifiers : Bool) : List TupleElement → List String
  | [] => []
  | ⟨type, _⟩ :: rest =>
    type.plainNames inQualifiers ++ TupleElement.plainNamesOfList inQualifiers rest

end

mutual

/-- The names of the type parameters in a bound type. -/
def BoundType.parameters : BoundType → List String
  | ⟨name, _, _, arguments, elements, _, isParameter⟩ =>
    (if isParameter then [name] else []) ++ BoundType.parametersOfList arguments ++
      BoundElement.parametersOfList elements

/-- The names of the type parameters in some types. -/
def BoundType.parametersOfList : List BoundType → List String
  | [] => []
  | type :: rest => type.parameters ++ BoundType.parametersOfList rest

/-- The names of the type parameters in the elements of a tuple. -/
def BoundElement.parametersOfList : List BoundElement → List String
  | [] => []
  | ⟨type, _⟩ :: rest => type.parameters ++ BoundElement.parametersOfList rest

end

section Lists

/-- What is gathered from the items of a list one by one. -/
private theorem eq_flatMap {α β : Type} {all : List α → List β} {one : α → List β}
    (nothing : all [] = []) (more : ∀ item rest, all (item :: rest) = one item ++ all rest)
    (items : List α) : all items = items.flatMap one := by
  induction items with
  | nil => exact nothing
  | cons item rest ih => rw [more, ih, List.flatMap_cons]

variable (inQualifiers : Bool)

theorem TypeExpr.plainNamesOfList_eq (types : List TypeExpr) :
    TypeExpr.plainNamesOfList inQualifiers types =
      types.flatMap (TypeExpr.plainNames inQualifiers) :=
  eq_flatMap rfl (fun _ _ => rfl) types

theorem TupleElement.plainNamesOfList_eq (elements : List TupleElement) :
    TupleElement.plainNamesOfList inQualifiers elements =
      elements.flatMap fun element => element.type.plainNames inQualifiers :=
  eq_flatMap rfl (fun ⟨_, _⟩ _ => rfl) elements

/-- The plain names in the type arguments of the last part of a name, and those
in the other parts if asked for. -/
theorem NameSegment.plainNamesOfList_concat (before : List NameSegment) (last : NameSegment) :
    NameSegment.plainNamesOfList inQualifiers (before ++ [last]) =
      (if inQualifiers then
          before.flatMap fun segment => segment.arguments.flatMap (TypeExpr.plainNames inQualifiers)
        else []) ++
        last.arguments.flatMap (TypeExpr.plainNames inQualifiers) := by
  obtain ⟨lastName, lastArguments⟩ := last
  induction before with
  | nil =>
      rw [List.nil_append, NameSegment.plainNamesOfList, TypeExpr.plainNamesOfList_eq]
      cases inQualifiers <;> rfl
  | cons segment rest ih =>
      obtain ⟨name, arguments⟩ := segment
      obtain ⟨next, others, isNext⟩ : ∃ next others, rest ++ [⟨lastName, lastArguments⟩] =
          next :: others := List.exists_cons_of_ne_nil (by simp)
      rw [List.cons_append, isNext, NameSegment.plainNamesOfList, ← isNext, ih,
        TypeExpr.plainNamesOfList_eq]
      cases inQualifiers <;> simp

/-- The names in any type argument count if those in qualifiers do. -/
theorem NameSegment.mem_plainNamesOfList {segments : List NameSegment} {segment : NameSegment}
    {argument : TypeExpr} {name : String} (member : segment ∈ segments)
    (inArguments : argument ∈ segment.arguments) (inArgument : name ∈ argument.plainNames true) :
    name ∈ NameSegment.plainNamesOfList true segments := by
  obtain ⟨before, last, rfl⟩ : ∃ before last, segments = before ++ [last] :=
    ⟨_, _, (List.dropLast_append_getLast (List.ne_nil_of_mem member)).symm⟩
  rw [NameSegment.plainNamesOfList_concat, if_pos rfl, List.mem_append]
  rcases List.mem_append.mp member with front | isLast
  · exact .inl (List.mem_flatMap.mpr
      ⟨segment, front, List.mem_flatMap.mpr ⟨argument, inArguments, inArgument⟩⟩)
  · rw [List.mem_singleton] at isLast
    exact .inr (List.mem_flatMap.mpr ⟨argument, isLast ▸ inArguments, inArgument⟩)

theorem BoundType.parametersOfList_eq (types : List BoundType) :
    BoundType.parametersOfList types = types.flatMap BoundType.parameters :=
  eq_flatMap rfl (fun _ _ => rfl) types

theorem BoundElement.parametersOfList_eq (elements : List BoundElement) :
    BoundElement.parametersOfList elements =
      elements.flatMap fun element => element.type.parameters :=
  eq_flatMap rfl (fun ⟨_, _⟩ _ => rfl) elements

theorem BoundType.parameters_eq (type : BoundType) :
    type.parameters = (if type.isParameter then [type.name] else []) ++
      type.arguments.flatMap BoundType.parameters ++
      type.elements.flatMap fun element => element.type.parameters := by
  obtain ⟨name, space, container, arguments, elements, suffix, isParameter⟩ := type
  rw [← BoundType.parametersOfList_eq, ← BoundElement.parametersOfList_eq]
  rfl

end Lists

@[simp] theorem BoundType.parameters_simple (name : String) : (simple name).parameters = [] := by
  rw [parameters_eq]
  rfl

@[simp] theorem BoundType.parameters_parameter (name : String) :
    (parameter name).parameters = [name] := by
  rw [parameters_eq]
  rfl

@[simp] theorem BoundType.parameters_withSuffix (type : BoundType) (suffix : String) :
    (type.withSuffix suffix).parameters = type.parameters := by
  rw [parameters_eq, parameters_eq type]
  rfl

@[simp] theorem BoundType.parameters_tuple (elements : List BoundElement) :
    (tuple elements).parameters = elements.flatMap fun element => element.type.parameters := by
  rw [parameters_eq]
  rfl

@[simp] theorem DeclaredType.parameters_reference (head : DeclaredType)
    (arguments : List BoundType) :
    (head.reference arguments).parameters = arguments.flatMap BoundType.parameters := by
  rw [BoundType.parameters_eq]
  exact List.append_nil _

@[simp] theorem BoundSegment.parameters_asWritten (qualifier : Option String)
    (before : List BoundSegment) (last : BoundSegment) :
    (asWritten qualifier before last).parameters =
      last.arguments.flatMap BoundType.parameters := by
  rw [BoundType.parameters_eq]
  exact List.append_nil _

namespace BoundSegment

variable {types : List DeclaredType} {scope : Scope} {expandAlias : String → Option BoundType}

/-- A plain name is a type parameter if one of that name is in scope; aliases
stand for types without any. -/
theorem Resolves.parameters_of_plain {name : String} {type : BoundType}
    (resolves : Resolves types scope expandAlias none [⟨name, []⟩] type)
    (aliases : ∀ name target, expandAlias name = some target → target.parameters = []) :
    type.parameters = [name].filter (· ∈ scope.typeParameters) := by
  generalize isNone : (none : Option String) = qualifier at resolves
  generalize isPlain : [BoundSegment.mk name []] = segments at resolves
  have unknown (notPlain : plain? scope expandAlias qualifier segments = none) :
      name ∉ scope.typeParameters := by
    intro known
    rw [← isNone, ← isPlain] at notPlain
    simp [plain?, known] at notPlain
  have isLast {before : List BoundSegment} {last : BoundSegment}
      (parts : [BoundSegment.mk name []] = before ++ [last]) : last.arguments = [] := by
    have parts : [] ++ [BoundSegment.mk name []] = before ++ [last] := parts
    obtain ⟨-, isLast⟩ := List.append_inj' parts rfl
    cases isLast
    rfl
  cases resolves with
  | parameter known =>
      cases isPlain
      simp [known]
  | aliased isAlias expands =>
      cases isPlain
      simp [aliases _ _ expands, isAlias]
  | declared notPlain found =>
      simp [isLast isPlain, unknown notPlain]
  | written notPlain undeclared =>
      simp [isLast isPlain, unknown notPlain]

/-- Any other name has the parameters in the type arguments of its last part. -/
theorem Resolves.parameters_of_dotted {qualifier : Option String} {before : List BoundSegment}
    {last : BoundSegment} {type : BoundType}
    (resolves : Resolves types scope expandAlias qualifier (before ++ [last]) type)
    (notPlain : ∀ name, qualifier = none → before ++ [last] ≠ [⟨name, []⟩]) :
    type.parameters = last.arguments.flatMap BoundType.parameters := by
  generalize isName : before ++ [last] = segments at resolves notPlain
  cases resolves with
  | parameter known => exact absurd rfl (notPlain _ rfl)
  | aliased unknown expands => exact absurd rfl (notPlain _ rfl)
  | declared notPlain found =>
      obtain ⟨-, isLast⟩ := List.append_inj' isName rfl
      cases isLast
      exact DeclaredType.parameters_reference _ _
  | written notPlain undeclared =>
      obtain ⟨-, isLast⟩ := List.append_inj' isName rfl
      cases isLast
      exact parameters_asWritten _ _ _

/-- A name is resolved alike under different type parameters, unless it is one of
them. -/
theorem resolve_congr (types : List DeclaredType) (scope : Scope)
    (expandAlias : String → Option BoundType) {qualifier : Option String}
    {segments : List BoundSegment} {first second : List String}
    (agree : ∀ name, qualifier = none → segments = [⟨name, []⟩] → (name ∈ first ↔ name ∈ second)) :
    resolve types { scope with typeParameters := first } expandAlias qualifier segments =
      resolve types { scope with typeParameters := second } expandAlias qualifier segments := by
  have plain : plain? { scope with typeParameters := first } expandAlias qualifier segments =
      plain? { scope with typeParameters := second } expandAlias qualifier segments := by
    unfold plain?
    split
    · next name =>
      cases qualifier with
      | some word => rfl
      | none => simp only [List.contains_iff_mem, agree name rfl rfl]
    · rfl
  simp only [resolve, plain]
  rfl

end BoundSegment

namespace TypeExpr

variable {types : List DeclaredType} {scope : Scope} {expandAlias : String → Option BoundType}

@[simp] theorem plainNames_predefined (inQualifiers : Bool) (keyword : String) (span : Span) :
    (predefined keyword span).plainNames inQualifiers = [] :=
  rfl

@[simp] theorem plainNames_nullable (inQualifiers : Bool) (inner : TypeExpr) (span : Span) :
    (nullable inner span).plainNames inQualifiers = inner.plainNames inQualifiers :=
  rfl

@[simp] theorem plainNames_pointer (inQualifiers : Bool) (inner : TypeExpr) (span : Span) :
    (pointer inner span).plainNames inQualifiers = inner.plainNames inQualifiers :=
  rfl

@[simp] theorem plainNames_array (inQualifiers : Bool) (element : TypeExpr) (rank : Nat)
    (span : Span) :
    (array element rank span).plainNames inQualifiers = element.plainNames inQualifiers :=
  rfl

theorem plainNames_tuple (inQualifiers : Bool) (elements : List TupleElement) (span : Span) :
    (tuple elements span).plainNames inQualifiers =
      elements.flatMap fun element => element.type.plainNames inQualifiers :=
  TupleElement.plainNamesOfList_eq inQualifiers elements

theorem plainNames_plain (inQualifiers : Bool) (name : String) (span : Span) :
    (named none [⟨name, []⟩] span).plainNames inQualifiers = [name] :=
  rfl

theorem plainNames_dotted (inQualifiers : Bool) {qualifier : Option String}
    {segments : List NameSegment} {span : Span}
    (notPlain : ∀ name, qualifier = none → segments ≠ [⟨name, []⟩]) :
    (named qualifier segments span).plainNames inQualifiers =
      NameSegment.plainNamesOfList inQualifiers segments := by
  rw [plainNames]
  exact fun name isNone isPlain => notPlain name isNone isPlain

/-- A name with parts is plain or it is not. -/
theorem plain_or_dotted (qualifier : Option String) (segments : List NameSegment) :
    (∃ name, qualifier = none ∧ segments = [⟨name, []⟩]) ∨
      ∀ name, qualifier = none → segments ≠ [⟨name, []⟩] := by
  by_cases isPlain : ∃ name, qualifier = none ∧ segments = [⟨name, []⟩]
  · exact .inl isPlain
  · exact .inr fun name isNone same => isPlain ⟨name, isNone, same⟩

/-- Binding the type arguments of a name does not make it a plain one. -/
theorem bound_ne_plain (bind : TypeExpr → BoundType) {qualifier : Option String}
    {segments : List NameSegment}
    (notPlain : ∀ name, qualifier = none → segments ≠ [⟨name, []⟩]) (name : String)
    (isNone : qualifier = none) :
    segments.map (fun segment => BoundSegment.mk segment.name (segment.arguments.map bind)) ≠
      [⟨name, []⟩] := by
  intro isPlain
  obtain ⟨⟨other, arguments⟩, isOne, same⟩ := List.map_eq_singleton_iff.mp isPlain
  cases arguments with
  | nil => exact notPlain other isNone isOne
  | cons first rest => simp at same

/-- The parameters in a bound type are the plain names of the written one that are
parameters in scope. -/
theorem IsProper.parameters_bindWith {type : TypeExpr} (proper : type.IsProper)
    (aliases : ∀ name target, expandAlias name = some target → target.parameters = []) :
    (type.bindWith types scope expandAlias).parameters =
      (type.plainNames false).filter (· ∈ scope.typeParameters) := by
  induction proper with
  | predefined known => simp
  | nullable _ ih => simp [ih]
  | pointer _ ih => simp [ih]
  | array _ ih => simp [ih]
  | @tuple elements span some _ ih =>
      rw [bindWith_tuple, plainNames_tuple, BoundType.parameters_tuple, List.flatMap_map,
        List.filter_flatMap]
      exact List.flatMap_congr fun element member => ih element member
  | @named qualifier segments span some words _ ih =>
      rw [bindWith_named]
      rcases plain_or_dotted qualifier segments with ⟨name, rfl, rfl⟩ | notPlain
      · rw [plainNames_plain]
        exact (BoundSegment.resolves_resolve _ _ _ _ (List.cons_ne_nil _ _)).parameters_of_plain
          aliases
      · obtain ⟨before, last, rfl⟩ : ∃ before last, segments = before ++ [last] :=
          ⟨segments.dropLast, segments.getLast some, (List.dropLast_append_getLast some).symm⟩
        have dotted := bound_ne_plain (TypeExpr.bindWith types scope expandAlias) notPlain
        have resolves := BoundSegment.resolves_resolve types scope expandAlias qualifier
          (mt List.map_eq_nil_iff.mp some :
            (before ++ [last]).map (NameSegment.bindWith types scope expandAlias) ≠ [])
        rw [List.map_append, List.map_singleton] at resolves dotted ⊢
        rw [resolves.parameters_of_dotted dotted, plainNames_dotted false notPlain,
          NameSegment.plainNamesOfList_concat, if_neg Bool.false_ne_true, List.nil_append,
          List.filter_flatMap, NameSegment.bindWith, List.flatMap_map]
        exact List.flatMap_congr fun argument member => ih last (by simp) argument member

/-- No plain name outside the type decides what it is bound to. -/
theorem IsProper.bindWith_congr {type : TypeExpr} (proper : type.IsProper)
    {first second : List String}
    (agree : ∀ name ∈ type.plainNames true, name ∈ first ↔ name ∈ second) :
    type.bindWith types { scope with typeParameters := first } expandAlias =
      type.bindWith types { scope with typeParameters := second } expandAlias := by
  induction proper with
  | predefined known => simp
  | nullable _ ih => simp [ih (by simpa using agree)]
  | pointer _ ih => simp [ih (by simpa using agree)]
  | array _ ih => simp [ih (by simpa using agree)]
  | @tuple elements span some _ ih =>
      rw [bindWith_tuple, bindWith_tuple]
      refine congrArg BoundType.tuple (List.map_congr_left fun element member => ?_)
      rw [plainNames_tuple] at agree
      rw [TupleElement.bindWith, TupleElement.bindWith, ih element member fun name inElement =>
        agree name (List.mem_flatMap.mpr ⟨element, member, inElement⟩)]
  | @named qualifier segments span some words _ ih =>
      rw [bindWith_named, bindWith_named]
      rcases plain_or_dotted qualifier segments with ⟨name, rfl, rfl⟩ | notPlain
      · rw [plainNames_plain] at agree
        exact BoundSegment.resolve_congr types scope expandAlias fun other _ isPlain => by
          obtain rfl : name = other := by simpa [NameSegment.bindWith] using isPlain
          exact agree name List.mem_cons_self
      · rw [plainNames_dotted true notPlain] at agree
        have same : segments.map
              (NameSegment.bindWith types { scope with typeParameters := first } expandAlias) =
            segments.map
              (NameSegment.bindWith types { scope with typeParameters := second } expandAlias) := by
          refine List.map_congr_left fun segment member => ?_
          refine congrArg (BoundSegment.mk segment.name)
            (List.map_congr_left fun argument inArguments => ?_)
          refine ih segment member argument inArguments fun name inArgument => agree name ?_
          exact NameSegment.mem_plainNamesOfList member inArguments inArgument
        rw [same]
        exact BoundSegment.resolve_congr types scope expandAlias fun name isNone isPlain =>
          absurd isPlain (bound_ne_plain _ notPlain name isNone)

end TypeExpr

/-- The target of an alias mentions no type parameter. -/
theorem Scope.parameters_of_expandAlias {scope : Scope} {types : List DeclaredType} {name : String}
    {target : BoundType} (expands : scope.expandAlias types name = some target) :
    target.parameters = [] := by
  obtain ⟨text, _, isTarget⟩ := Option.bind_eq_some_iff.mp expands
  split at isTarget
  · next type parsed =>
    cases isTarget
    rw [(TypeExpr.isWellFormed_of_parse parsed).isProper.parameters_bindWith
      fun _ _ found => by cases found]
    simp [Scope.forAliasTargets]
  · cases isTarget

/-- The only argument that is shown of a proper type mentions what the type
mentions. -/
theorem BoundType.IsProper.parameters_of_arguments {type argument : BoundType}
    (proper : type.IsProper) (arguments : TypeView.arguments type = [argument]) :
    argument.IsProper ∧ argument.parameters = type.parameters := by
  obtain ⟨isOnly, name, named⟩ := view_eq_cons arguments
  obtain ⟨-, single, -⟩ := head?_eq_some_iff.mp named
  -- a type parameter would have no arguments
  have noParameter : type.isParameter = false := by
    rw [Bool.eq_false_iff]
    intro isParameter
    rw [proper.bare isParameter] at isOnly
    cases isOnly
  refine ⟨proper.arguments argument (by simp [isOnly]), ?_⟩
  rw [parameters_eq type, single, isOnly, noParameter]
  simp

/-- A payload mentions the type parameters that the whole type mentions. -/
theorem BoundType.IsProper.parameters_of_payload {grammar : ResultGrammar}
    {type carried : BoundType} (proper : type.IsProper)
    (isCarried : (grammar.payload type).type? = some carried) :
    carried.parameters = type.parameters := by
  obtain ⟨outer, rfl | isArgument, arguments⟩ := ResultGrammar.exists_of_payload isCarried
  · exact (proper.parameters_of_arguments arguments).2
  · obtain ⟨properOuter, same⟩ := proper.parameters_of_arguments isArgument
    exact (properOuter.parameters_of_arguments arguments).2.trans same

/-- The parameters of the types around a method. -/
def PlacedMethod.outerParameters (placed : PlacedMethod) : List String :=
  placed.type.scope.typeParameters ++ placed.type.decl.typeParameters

/-- The shape of a model is that of a method that was found. -/
theorem MarkedSite.exists_of_read {site : MarkedSite} {table : TypeTable} {marker : Marker}
    {grammar : ResultGrammar} {model : SiteModel}
    (read : (site.read table marker grammar).outcome = .ok (some model)) :
    ∃ type method, table.find? site.fullName = some type ∧
      type.method? marker site.method = some method ∧
      method.returnShape grammar = .ok model.shape := by
  obtain ⟨type, method, shape, found, isMethod, isShape, rfl⟩ := model_of_read read
  exact ⟨type, method, found, isMethod, isShape⟩

@[simp] theorem Payload.type?_map {σ τ : Type} (view : σ → τ) (payload : Payload σ) :
    (payload.map view).type? = payload.type?.map view := by
  cases payload <;> rfl

/-- A method that is found in a table was declared, under the name and in the type
that it was looked up by. -/
theorem TypeTable.exists_placed_of_method? {units : List SourceUnit} {fullName : String}
    {type : TypeSymbol} (found : (TypeTable.ofUnits units).find? fullName = some type)
    {marker : Marker} {name : String} {method : MethodSymbol}
    (isMethod : type.method? marker name = some method) :
    ∃ placed ∈ PlacedMethod.ofUnits units, placed.type.fullName = fullName ∧
      placed.method.name = name ∧
      placed.symbol (heads (units.flatMap SourceUnit.types)) = method := by
  have named : method ∈ type.methods.filter fun method => method.name == name := by
    rcases Option.or_eq_some_iff.mp isMethod with marked | ⟨-, first⟩
    · exact List.mem_of_find?_eq_some marked
    · exact List.mem_of_head? first
  rw [find?_ofUnits] at found
  obtain ⟨first, -, rfl⟩ := Option.map_eq_some_iff.mp found
  obtain ⟨member, isName⟩ := List.mem_filter.mp named
  obtain ⟨placed, inType, rfl⟩ := List.mem_map.mp member
  obtain ⟨declared, isType⟩ := List.mem_filter.mp inType
  exact ⟨placed, declared, by simpa using isType, by simpa using isName, rfl⟩

/-- A model that carries a value was read off a declared method.  Its payload
mentions the plain names of the return type that are parameters of the method or
of a type around it, but only the method's own are declared with the accessors.
So nothing undeclared is mentioned just if the return type has no plain name that
is a parameter of a type around alone; and if not even its qualifiers have one,
then the types around add nothing to its meaning. -/
theorem MarkedSite.payload_declared_iff {units : List SourceUnit}
    (parsed : ∀ unit ∈ units, unit.IsParsed) {marker : Marker} {grammar : ResultGrammar}
    {site : MarkedSite} {model : SiteModel}
    (read : (site.read (TypeTable.ofUnits units) marker grammar).outcome = .ok (some model))
    {text : String} (carries : model.shape.payload.type? = some text) :
    let known := TypeTable.heads (units.flatMap SourceUnit.types)
    ∃ placed ∈ PlacedMethod.ofUnits units,
      placed.type.fullName = site.fullName ∧ placed.method.name = site.method ∧
      model.shape.generics = placed.method.typeParameters ∧
      ∃ carried, (grammar.payload (placed.symbol known).returnType).type? = some carried ∧
        text = carried.render model.shape.generics ∧
        carried.parameters = (placed.method.returnType.plainNames false).filter
          (· ∈ placed.outerParameters ++ model.shape.generics) ∧
        ((∀ name ∈ carried.parameters, name ∈ model.shape.generics) ↔
          ∀ name ∈ placed.method.returnType.plainNames false,
            name ∈ placed.outerParameters → name ∈ model.shape.generics) ∧
        ((∀ name ∈ placed.method.returnType.plainNames true,
            name ∈ placed.outerParameters → name ∈ model.shape.generics) →
          (placed.symbol known).returnType = placed.method.returnType.bind known
            { placed.inner with typeParameters := model.shape.generics }) := by
  intro known
  obtain ⟨type, method, found, isMethod, isShape⟩ := exists_of_read read
  obtain ⟨placed, declared, isType, isName, rfl⟩ :=
    TypeTable.exists_placed_of_method? found isMethod
  obtain ⟨isGenerics, isPayload⟩ := MethodSymbol.payload_of_returnShape isShape
  have isGenerics : model.shape.generics = placed.method.typeParameters := isGenerics
  have proper := PlacedMethod.isProper_of_mem parsed declared
  have named : ∀ head ∈ known, head.name ≠ "" := fun head isHead =>
    (TypeTable.isWord_of_mem_heads parsed head isHead).ne_empty
  rw [isPayload, Payload.type?_map] at carries
  obtain ⟨carried, isCarried, rfl⟩ := Option.map_eq_some_iff.mp carries
  have mentioned : carried.parameters = (placed.method.returnType.plainNames false).filter
      (· ∈ placed.outerParameters ++ model.shape.generics) := by
    rw [(proper.bind named).parameters_of_payload isCarried, isGenerics]
    exact proper.parameters_bindWith fun _ _ => Scope.parameters_of_expandAlias
  refine ⟨placed, declared, isType, isName, isGenerics, carried, isCarried,
    by rw [isGenerics]; rfl, mentioned, ?_, fun declaredHere => ?_⟩
  · rw [mentioned]
    constructor
    · intro own name inType isOuter
      exact own name (List.mem_filter.mpr ⟨inType, by simp [isOuter]⟩)
    · intro own name inCarried
      obtain ⟨inType, known⟩ := List.mem_filter.mp inCarried
      rcases List.mem_append.mp (of_decide_eq_true known) with isOuter | isOwn
      · exact own name inType isOuter
      · exact isOwn
  · refine proper.bindWith_congr fun name inType => ?_
    change name ∈ placed.outerParameters ++ placed.method.typeParameters ↔ _
    rw [List.mem_append, ← isGenerics]
    exact ⟨fun known => known.elim (declaredHere name inType) id, .inr⟩

private theorem MarkedSite.exists_model_of_shape {site : MarkedSite} {table : TypeTable}
    {marker : Marker} {grammar : ResultGrammar} {shape : ReturnShape}
    (seen : (site.read table marker grammar).outcome.toOption.map (Option.map SiteModel.shape) =
      some (some shape)) :
    ∃ model, (site.read table marker grammar).outcome = .ok (some model) ∧ model.shape = shape := by
  cases read : (site.read table marker grammar).outcome with
  | error error => simp [read, Except.toOption] at seen
  | ok found =>
      rw [read] at seen
      obtain ⟨model, rfl, isShape⟩ := Option.map_eq_some_iff.mp (Option.some.inj seen)
      exact ⟨model, rfl, isShape⟩

/-- A generic method in a class that is not. -/
private def genericMethodText : String :=
  "class Api \x7b [ErrorResult(1, \"Gone\")] " ++
    "public Task<Result<Map<string, T>>> Get<T>() => null; \x7d"

/-- The accessors of a generic method in a class without parameters declare what
their payload mentions. -/
theorem MarkedSite.payload_declared_iff_of_generic_method :
    ∃ unit site model, SourceUnit.parse genericMethodText "Api.cs" = .ok unit ∧
      MarkedSite.ofUnits {} [unit] = [site] ∧
      (site.read (TypeTable.ofUnits [unit]) {} {}).outcome = .ok (some model) ∧
      model.shape = ⟨.asyncValue "Map<string, T>", ["T"]⟩ ∧
      ∃ carried : BoundType, "Map<string, T>" = carried.render model.shape.generics ∧
        ∀ name ∈ carried.parameters, name ∈ model.shape.generics := by
  have seen : (SourceUnit.parse genericMethodText "Api.cs").toOption.map (fun unit =>
      ((MarkedSite.ofUnits {} [unit]).map (fun site =>
        (site.read (TypeTable.ofUnits [unit]) {} {}).outcome.toOption.map
          (Option.map SiteModel.shape)),
        (PlacedMethod.ofUnits [unit]).all fun placed => placed.outerParameters.isEmpty)) =
      some ([some (some ⟨.asyncValue "Map<string, T>", ["T"]⟩)], true) := by
    decide +kernel
  obtain ⟨unit, isUnit, parsed, isSeen⟩ := SourceUnit.exists_of_parse seen
  obtain ⟨sites, methods⟩ := Prod.mk.inj isSeen
  obtain ⟨site, isOnly, outcome⟩ := List.map_eq_singleton_iff.mp sites
  obtain ⟨model, read, isShape⟩ := exists_model_of_shape outcome
  have carries : model.shape.payload.type? = some "Map<string, T>" := by
    rw [isShape]
    rfl
  obtain ⟨placed, member, -, -, -, carried, -, isText, -, declaredIff, -⟩ :=
    MarkedSite.payload_declared_iff parsed read carries
  have noOuter : placed.outerParameters = [] :=
    List.isEmpty_iff.mp (List.all_eq_true.mp methods placed member)
  refine ⟨unit, site, model, isUnit, isOnly, read, isShape, carried, isText,
    declaredIff.mpr fun name _ isOuter => ?_⟩
  rw [noOuter] at isOuter
  cases isOuter

/-- A generic class with a method that is not. -/
private def boxText : String :=
  "class Box<T> \x7b [ErrorResult(1, \"Gone\")] public Result<T> Get() => null; \x7d"

/-- The payload of a method may be the parameter of its class, which the
accessors do not declare. -/
theorem MarkedSite.payload_undeclared_of_box :
    ∃ unit site model method carried, SourceUnit.parse boxText "Box.cs" = .ok unit ∧
      MarkedSite.ofUnits {} [unit] = [site] ∧
      (site.read (TypeTable.ofUnits [unit]) {} {}).outcome = .ok (some model) ∧
      ((TypeTable.ofUnits [unit]).find? site.fullName).bind (·.method? {} site.method) =
        some method ∧
      (ResultGrammar.payload {} method.returnType).type? = some carried ∧
      model.shape = ⟨.value (carried.render []), []⟩ ∧
      ¬ ∀ name ∈ carried.parameters, name ∈ model.shape.generics := by
  have seen : (SourceUnit.parse boxText "Box.cs").toOption.map (fun unit =>
      (MarkedSite.ofUnits {} [unit]).map fun site =>
        ((site.read (TypeTable.ofUnits [unit]) {} {}).outcome.toOption.map
          (Option.map SiteModel.shape),
        (((TypeTable.ofUnits [unit]).find? site.fullName).bind (·.method? {} site.method)).bind
          fun method => (ResultGrammar.payload {} method.returnType).type?.map
            fun carried => (carried.render [], carried.parameters))) =
      some [(some (some ⟨.value "T", []⟩), some ("T", ["T"]))] := by
    decide +kernel
  obtain ⟨unit, isUnit, -, isSeen⟩ := SourceUnit.exists_of_parse seen
  obtain ⟨site, isOnly, ofSite⟩ := List.map_eq_singleton_iff.mp isSeen
  obtain ⟨outcome, symbol⟩ := Prod.mk.inj ofSite
  obtain ⟨model, read, isShape⟩ := exists_model_of_shape outcome
  obtain ⟨method, isMethod, payload⟩ := Option.bind_eq_some_iff.mp symbol
  obtain ⟨carried, isCarried, ofCarried⟩ := Option.map_eq_some_iff.mp payload
  obtain ⟨isText, parameters⟩ := Prod.mk.inj ofCarried
  refine ⟨unit, site, model, method, carried, isUnit, isOnly, read, isMethod, isCarried, ?_, ?_⟩
  · rw [isShape, isText]
  · rw [isShape, parameters]
    exact fun declared => List.not_mem_nil (declared "T" List.mem_cons_self)

end ErrorAccessors
