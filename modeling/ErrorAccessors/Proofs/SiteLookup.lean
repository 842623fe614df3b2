/-
# Finding a marked method again

A site is collected from one declaration and keeps nothing of it but names.
Its model is read by looking these names up: the full name of the type among the
merged declarations of all files, then the method among all their methods.  The
two ways do not use the same key.  Collecting takes the first marked method of a
namespace, type name and method name; looking up takes the first marked method
of that name on the merged type of that full name.

Both are searches through the same list, that of all method declarations in
source order.  Where a full name tells the namespace and the types around, the
second search finds whatever the first one found, since a full name also tells
the type's own name.
-/

import ErrorAccessors.Proofs.DottedName
import ErrorAccessors.Proofs.SourceNames

namespace ErrorAccessors

/-- A method declaration together with the type declaration it stands in. -/
structure PlacedMethod where
  type : ScopedType
  method : MethodDecl

namespace PlacedMethod

/-- The methods declared directly in a type. -/
def ofType (type : ScopedType) : List PlacedMethod :=
  type.decl.ownMethods.map (PlacedMethod.mk type)

/-- All methods that some files declare, in the order in which they are
visited. -/
def ofUnits (units : List SourceUnit) : List PlacedMethod :=
  (units.flatMap SourceUnit.types).flatMap ofType

/-- Whether the method carries the marker. -/
def isMarked (marker : Marker) (placed : PlacedMethod) : Bool :=
  placed.method.isMarked marker

/-- The site of the method. -/
def site (placed : PlacedMethod) : MarkedSite :=
  placed.type.siteOf placed.method

/-- The symbol of the method, its return type bound where it stands. -/
def symbol (known : List DeclaredType) (placed : PlacedMethod) : MethodSymbol :=
  placed.method.toSymbol known
    (placed.type.scope.enterType placed.type.decl.name placed.type.decl.typeParameters)
    placed.type.scope.usings

/-- The scope in which the return type of the method is bound. -/
def inner (placed : PlacedMethod) : Scope :=
  (placed.type.scope.enterType placed.type.decl.name
    placed.type.decl.typeParameters).withTypeParameters placed.method.typeParameters

/-- What reading the model of a site gives if this declaration is selected. -/
def reading (known : List DeclaredType) (marker : Marker) (grammar : ResultGrammar)
    (site : MarkedSite) (placed : PlacedMethod) : SiteReading :=
  let symbol := placed.symbol known
  ⟨(symbol.returnShape grammar).map fun shape =>
      some ⟨site, symbol.errorEntries marker, shape, placed.type.scope.usings⟩,
    symbol.annotationWarnings marker⟩

/-- The declaration that a site was collected from: the first marked one that
has its identifier. -/
def origin? (marker : Marker) (units : List SourceUnit) (site : MarkedSite) :
    Option PlacedMethod :=
  (ofUnits units).find? fun placed =>
    placed.isMarked marker && placed.site.qualifiedId == site.qualifiedId

/-- The declaration that a site stands for when it is looked up: the first
marked one of its name on the type of its full name. -/
def selected? (marker : Marker) (units : List SourceUnit) (site : MarkedSite) :
    Option PlacedMethod :=
  (ofUnits units).find? fun placed =>
    placed.type.fullName == site.fullName && placed.method.name == site.method &&
      placed.isMarked marker

@[simp] theorem symbol_name (known : List DeclaredType) (placed : PlacedMethod) :
    (placed.symbol known).name = placed.method.name := rfl

@[simp] theorem symbol_nameSpan (known : List DeclaredType) (placed : PlacedMethod) :
    (placed.symbol known).nameSpan = placed.method.nameSpan := rfl

theorem symbol_returnType (known : List DeclaredType) (placed : PlacedMethod) :
    (placed.symbol known).returnType = placed.method.returnType.bind known placed.inner := rfl

@[simp] theorem symbol_isMarked (known : List DeclaredType) (placed : PlacedMethod)
    (marker : Marker) : (placed.symbol known).isMarked marker = placed.isMarked marker := by
  show ((placed.method.attributes.map AppliedAttribute.ofAttribute).any _) = _
  rw [List.any_map]
  rfl

theorem map_symbol_ofType (known : List DeclaredType) (type : ScopedType) :
    (ofType type).map (symbol known) = type.methodSymbols known := by
  rw [ofType, List.map_map]
  rfl

/-- The sites of all files are those of their marked methods. -/
theorem map_site_ofUnits (marker : Marker) (units : List SourceUnit) :
    ((ofUnits units).filter (isMarked marker)).map site =
      units.flatMap fun unit => unit.sites marker := by
  have ofOne (type : ScopedType) :
      ((ofType type).filter (isMarked marker)).map site = type.sites marker := by
    rw [ofType, List.filter_map, List.map_map]
    rfl
  rw [ofUnits, List.filter_flatMap, List.map_flatMap]
  simp only [ofOne, List.flatMap_assoc]
  rfl

/-- The methods that are declared under one full name, by all declarations of
it. -/
theorem map_symbol_filter (known : List DeclaredType) (fullName : String)
    (declared : List ScopedType) :
    ((declared.flatMap ofType).filter fun placed => placed.type.fullName == fullName).map
        (symbol known) =
      (declared.filter fun type => type.fullName == fullName).flatMap fun type =>
        type.methodSymbols known := by
  have ofOne (type : ScopedType) :
      (ofType type).filter (fun placed => placed.type.fullName == fullName) =
        if type.fullName == fullName then ofType type else [] := by
    rw [ofType, List.filter_map]
    by_cases isIt : type.fullName = fullName <;> simp [isIt, Function.comp_def]
  rw [List.filter_flatMap, List.map_flatMap]
  simp only [ofOne]
  induction declared with
  | nil => rfl
  | cons type rest ih =>
      rw [List.flatMap_cons, ih, List.filter_cons]
      split
      · rw [List.flatMap_cons, map_symbol_ofType]
      · rfl

end PlacedMethod

namespace TypeTable

/-- The head of a full name is that of its first declaration. -/
theorem find?_heads (declared : List ScopedType) (fullName : String) :
    (heads declared).find? (fun type => type.fullName == fullName) =
      (declared.find? fun type => type.fullName == fullName).map DeclaredType.ofScoped := by
  refine find?_foldl_keepFirst ?_ fullName declared []
  exact fun _ => rfl

/-- Every head is that of a declaration. -/
theorem exists_of_mem_heads {declared : List ScopedType} {head : DeclaredType}
    (member : head ∈ heads declared) : ∃ type ∈ declared, head = .ofScoped type :=
  (mem_foldl_keepFirst member).resolve_left List.not_mem_nil

/-- Looking up a full name gives the head of its first declaration and the
methods of all its declarations. -/
theorem find?_ofUnits (units : List SourceUnit) (fullName : String) :
    (ofUnits units).find? fullName =
      ((units.flatMap SourceUnit.types).find? fun type => type.fullName == fullName).map
        fun first =>
          { DeclaredType.ofScoped first with
            methods :=
              ((PlacedMethod.ofUnits units).filter
                fun placed => placed.type.fullName == fullName).map
                (PlacedMethod.symbol (heads (units.flatMap SourceUnit.types))) } := by
  simp only [find?, ofUnits, List.find?_map, Function.comp_def]
  rw [find?_heads, Option.map_map, PlacedMethod.ofUnits, PlacedMethod.map_symbol_filter]
  cases found : (units.flatMap SourceUnit.types).find? fun type => type.fullName == fullName with
  | none => rfl
  | some first =>
      have isIt : first.fullName = fullName := by simpa using List.find?_some found
      simp only [Option.map_some, Function.comp_apply, DeclaredType.ofScoped, isIt]

end TypeTable

namespace MarkedSite

/-- Under every identifier the first site is kept. -/
theorem find?_distinct (sites : List MarkedSite) (qualifiedId : String) :
    (distinct sites).find? (fun other => other.qualifiedId == qualifiedId) =
      sites.find? fun other => other.qualifiedId == qualifiedId := by
  refine (find?_foldl_keepFirst ?_ qualifiedId sites []).trans Option.map_id'
  exact fun _ => rfl

/-- A site that is kept is the first one with its identifier. -/
theorem find?_of_mem_distinct {sites : List MarkedSite} {site : MarkedSite}
    (member : site ∈ distinct sites) :
    sites.find? (fun other => other.qualifiedId == site.qualifiedId) = some site := by
  rw [← find?_distinct]
  have isFound : ((distinct sites).find?
      fun other => other.qualifiedId == site.qualifiedId).isSome = true := by
    rw [List.find?_isSome]
    exact ⟨site, member, by simp⟩
  obtain ⟨other, isFirst⟩ := Option.isSome_iff_exists.mp isFound
  have sameId : other.qualifiedId = site.qualifiedId := by simpa using List.find?_some isFirst
  rw [isFirst, List.inj_on_of_nodup_map (nodup_qualifiedId_distinct sites)
    (List.mem_of_find?_eq_some isFirst) member sameId]

/-- Every site was collected from a declaration. -/
theorem exists_origin {marker : Marker} {units : List SourceUnit} {site : MarkedSite}
    (member : site ∈ ofUnits marker units) :
    ∃ placed, PlacedMethod.origin? marker units site = some placed ∧ placed.site = site := by
  have first := find?_of_mem_distinct member
  rw [← PlacedMethod.map_site_ofUnits, List.find?_map, List.find?_filter] at first
  simp only [Bool.decide_and, Bool.decide_eq_true, Function.comp_apply] at first
  exact Option.map_eq_some_iff.mp first

end MarkedSite

/-- Declarations of one full name have the same namespace and the same types
around them. -/
def FullNamesTell (units : List SourceUnit) : Prop :=
  ∀ first ∈ units.flatMap SourceUnit.types, ∀ second ∈ units.flatMap SourceUnit.types,
    first.fullName = second.fullName →
      first.scope.space = second.scope.space ∧ first.scope.containers = second.scope.containers

instance (units : List SourceUnit) : Decidable (FullNamesTell units) :=
  inferInstanceAs (Decidable (∀ first ∈ _, ∀ second ∈ _, _ → _ ∧ _))

namespace PlacedMethod

theorem type_mem_of_mem {units : List SourceUnit} {placed : PlacedMethod}
    (member : placed ∈ ofUnits units) : placed.type ∈ units.flatMap SourceUnit.types := by
  obtain ⟨type, declared, inType⟩ := List.mem_flatMap.mp member
  obtain ⟨method, _, rfl⟩ := List.mem_map.mp inType
  exact declared

/-- Where full names tell the surroundings of a type, they tell what its methods
are collected under. -/
theorem qualifiedId_eq_of_fullName {units : List SourceUnit} (tell : FullNamesTell units)
    {first second : PlacedMethod} (inFirst : first ∈ ofUnits units)
    (inSecond : second ∈ ofUnits units) (sameType : first.type.fullName = second.type.fullName)
    (sameMethod : first.method.name = second.method.name) :
    first.site.qualifiedId = second.site.qualifiedId := by
  obtain ⟨space, containers⟩ :=
    tell _ (type_mem_of_mem inFirst) _ (type_mem_of_mem inSecond) sameType
  have sameName : first.type.decl.name = second.type.decl.name := by
    simp only [ScopedType.fullName, Scope.qualify, space, containers] at sameType
    exact Text.joinDotted_last_inj
      (second.type.scope.space :: second.type.scope.containers) sameType
  show Text.joinDotted [first.type.scope.space, first.type.decl.name, first.method.name] = _
  rw [space, sameName, sameMethod]
  rfl

/-- Looking a site up selects the declaration that it was collected from. -/
theorem selected?_of_origin? {marker : Marker} {units : List SourceUnit}
    (tell : FullNamesTell units) {site : MarkedSite} {placed : PlacedMethod}
    (origin : origin? marker units site = some placed) (isSite : placed.site = site) :
    selected? marker units site = some placed := by
  subst isSite
  obtain ⟨isOrigin, before, behind, parts, none⟩ := List.find?_eq_some_iff_append.mp origin
  have marked : placed.isMarked marker = true := (Bool.and_eq_true _ _ ▸ isOrigin).1
  have isNamed : (placed.type.fullName == placed.site.fullName &&
      placed.method.name == placed.site.method) = true := by
    simp [site, ScopedType.siteOf]
  rw [selected?, List.find?_eq_some_iff_append]
  refine ⟨by rw [isNamed, marked]; rfl, before, behind, parts, fun other earlier => ?_⟩
  have inOther : other ∈ ofUnits units := parts ▸ List.mem_append_left _ earlier
  have inPlaced : placed ∈ ofUnits units := parts ▸ by simp
  have passed := none other earlier
  simp only [Bool.not_eq_eq_eq_not, Bool.not_true, Bool.and_eq_false_iff, beq_eq_false_iff_ne]
    at passed ⊢
  by_cases sameType : other.type.fullName = placed.site.fullName
  · by_cases sameMethod : other.method.name = placed.site.method
    · -- an earlier one would have been collected in place of this one
      have sameId := qualifiedId_eq_of_fullName tell inOther inPlaced sameType sameMethod
      exact .inr (passed.resolve_right fun differs => differs sameId)
    · exact .inl (.inr sameMethod)
  · exact .inl (.inl sameType)

/-- Some declaration is selected for every site. -/
theorem exists_selected {marker : Marker} {units : List SourceUnit} {site : MarkedSite}
    (member : site ∈ MarkedSite.ofUnits marker units) :
    ∃ placed, selected? marker units site = some placed := by
  obtain ⟨placed, origin, rfl⟩ := MarkedSite.exists_origin member
  have marked : placed.isMarked marker = true :=
    (Bool.and_eq_true _ _ ▸ List.find?_some origin).1
  refine Option.isSome_iff_exists.mp (List.find?_isSome.mpr
    ⟨placed, List.mem_of_find?_eq_some origin, ?_⟩)
  simp [marked, site, ScopedType.siteOf]

end PlacedMethod

section Reading

variable {marker : Marker} {units : List SourceUnit} {site : MarkedSite} {placed : PlacedMethod}

/-- The table finds the symbol of the declaration that a site stands for. -/
theorem TypeTable.method?_of_selected
    (selected : PlacedMethod.selected? marker units site = some placed) :
    ∃ type, (TypeTable.ofUnits units).find? site.fullName = some type ∧
      type.method? marker site.method =
        some (placed.symbol (heads (units.flatMap SourceUnit.types))) := by
  have isSelected := List.find?_some selected
  simp only [Bool.and_eq_true, beq_iff_eq] at isSelected
  have declared : ((units.flatMap SourceUnit.types).find?
      fun other => other.fullName == site.fullName).isSome = true := by
    rw [List.find?_isSome]
    refine ⟨placed.type, PlacedMethod.type_mem_of_mem (List.mem_of_find?_eq_some selected), ?_⟩
    simpa using isSelected.1.1
  obtain ⟨first, found⟩ := Option.isSome_iff_exists.mp declared
  rw [TypeTable.find?_ofUnits, found]
  refine ⟨_, rfl, ?_⟩
  simp only [TypeSymbol.method?, List.find?_filter, List.find?_map, Function.comp_def,
    PlacedMethod.symbol_name, PlacedMethod.symbol_isMarked, Bool.decide_and, Bool.decide_eq_true]
  simp only [PlacedMethod.selected?, Bool.and_assoc] at selected
  rw [selected]
  rfl

/-- The payload of a shape is the spelled payload of the return type, and its
generic parameters are those of the method. -/
theorem MethodSymbol.payload_of_returnShape {method : MethodSymbol} {grammar : ResultGrammar}
    {shape : ReturnShape} (isShape : method.returnShape grammar = .ok shape) :
    shape.generics = method.typeParameters ∧
      shape.payload =
        (grammar.payload method.returnType).map (BoundType.render method.typeParameters) := by
  have spelled {type : BoundType} {text : String} (isText : method.spell type = .ok text) :
      text = type.render method.typeParameters := by
    simp only [spell] at isText
    split at isText
    · cases isText
    · exact (Except.ok.inj isText).symm
  simp only [returnShape] at isShape
  cases carried : grammar.payload method.returnType with
  | void =>
      simp only [carried] at isShape
      cases isShape
      exact ⟨rfl, rfl⟩
  | value type =>
      simp only [carried] at isShape
      cases isText : method.spell type with
      | error error => rw [isText] at isShape; cases isShape
      | ok text =>
          rw [isText] at isShape
          cases isShape
          exact ⟨rfl, congrArg Payload.value (spelled isText)⟩
  | asyncValue type =>
      simp only [carried] at isShape
      cases isText : method.spell type with
      | error error => rw [isText] at isShape; cases isShape
      | ok text =>
          rw [isText] at isShape
          cases isShape
          exact ⟨rfl, congrArg Payload.asyncValue (spelled isText)⟩

/-- A model holds what was read off a method that was found. -/
theorem MarkedSite.model_of_read {site : MarkedSite} {table : TypeTable} {marker : Marker}
    {grammar : ResultGrammar} {model : SiteModel}
    (read : (site.read table marker grammar).outcome = .ok (some model)) :
    ∃ type method shape, table.find? site.fullName = some type ∧
      type.method? marker site.method = some method ∧ method.returnShape grammar = .ok shape ∧
      model = ⟨site, method.errorEntries marker, shape, method.imports⟩ := by
  unfold MarkedSite.read at read
  cases found : table.find? site.fullName with
  | none =>
      simp only [found] at read
      cases read
  | some type =>
      cases isMethod : type.method? marker site.method with
      | none =>
          simp only [found, isMethod] at read
          cases read
      | some method =>
          simp only [found, isMethod] at read
          cases isShape : method.returnShape grammar with
          | error error =>
              rw [isShape] at read
              cases read
          | ok shape =>
              rw [isShape] at read
              cases read
              exact ⟨type, method, shape, rfl, isMethod, isShape, rfl⟩

/-- The model of a site is read off the declaration that the site stands for. -/
theorem MarkedSite.read_of_selected (grammar : ResultGrammar)
    (selected : PlacedMethod.selected? marker units site = some placed) :
    site.read (TypeTable.ofUnits units) marker grammar =
      placed.reading (TypeTable.heads (units.flatMap SourceUnit.types)) marker grammar site := by
  obtain ⟨type, found, isMethod⟩ := TypeTable.method?_of_selected selected
  simp only [MarkedSite.read, found, isMethod]
  rfl

end Reading

section Entries

/-- An attribute gives a parameter a value: by the first argument that is passed by its name,
or, if there is none, by the argument at its place that is passed without a name. -/
inductive Attribute.Assigns (applied : Attribute) (place : Nat) (parameter : String)
    (value : AttributeValue) : Prop where
  | byName (before behind : List AttributeArgument) (argument : AttributeArgument)
      (parts : applied.arguments = before ++ argument :: behind)
      (isNamed : argument.name = some parameter) (isValue : argument.value = value)
      (isFirst : ∀ earlier ∈ before, earlier.name ≠ some parameter)
  | byPlace (argument : AttributeArgument) (isThere : applied.arguments[place]? = some argument)
      (noName : argument.name = none) (isValue : argument.value = value)
      (others : ∀ other ∈ applied.arguments, other.name ≠ some parameter)

/-- An attribute states an error: it gives the parameters of the marker a code and a message. -/
def Attribute.States (marker : Marker) (applied : Attribute) (entry : ErrorEntry) : Prop :=
  applied.Assigns 0 marker.codeParameter (.int entry.code) ∧
    applied.Assigns 1 marker.messageParameter (.str entry.message)

/-- The errors that attributes state, one after the other: those of the marker's attributes
that state one. -/
inductive Attribute.StateAll (marker : Marker) : List Attribute → List ErrorEntry → Prop where
  | nil : StateAll marker [] []
  | entry {applied : Attribute} {entry : ErrorEntry} {rest : List Attribute}
      {entries : List ErrorEntry} (accepted : marker.accepts applied.simpleName = true)
      (states : applied.States marker entry) (others : StateAll marker rest entries) :
      StateAll marker (applied :: rest) (entry :: entries)
  | skipped {applied : Attribute} {rest : List Attribute} {entries : List ErrorEntry}
      (useless : marker.accepts applied.simpleName = true → ∀ entry, ¬ applied.States marker entry)
      (others : StateAll marker rest entries) : StateAll marker (applied :: rest) entries

variable {marker : Marker} {applied : Attribute}

theorem Attribute.assigns_iff {place : Nat} {parameter : String} {value : AttributeValue} :
    applied.Assigns place parameter value ↔
      (AppliedAttribute.ofAttribute applied).argument? place parameter = some value := by
  have byName : (AppliedAttribute.ofAttribute applied).arguments.find?
      (fun argument => argument.1 == some parameter) =
        (applied.arguments.find? fun argument => argument.name == some parameter).map
          fun argument => (argument.name, argument.value) := List.find?_map ..
  have byPlace : (AppliedAttribute.ofAttribute applied).arguments[place]? =
      applied.arguments[place]?.map fun argument => (argument.name, argument.value) :=
    List.getElem?_map ..
  rw [AppliedAttribute.argument?, byName, byPlace]
  constructor
  · rintro (⟨before, behind, argument, parts, isNamed, rfl, isFirst⟩ |
      ⟨argument, isThere, noName, rfl, others⟩)
    · have found : applied.arguments.find? (fun argument => argument.name == some parameter) =
          some argument :=
        List.find?_eq_some_iff_append.mpr
          ⟨by simp [isNamed], before, behind, parts, by simpa using isFirst⟩
      rw [found]
      rfl
    · have none : applied.arguments.find? (fun argument => argument.name == some parameter) =
          none := List.find?_eq_none.mpr (by simpa using others)
      simp [none, isThere, noName]
  · intro isValue
    cases found : applied.arguments.find? fun argument => argument.name == some parameter with
    | some argument =>
        obtain ⟨isNamed, before, behind, parts, isFirst⟩ := List.find?_eq_some_iff_append.mp found
        rw [found] at isValue
        exact .byName before behind argument parts (by simpa using isNamed)
          (Option.some.inj isValue) (by simpa using isFirst)
    | none =>
        have others := List.find?_eq_none.mp found
        cases isThere : applied.arguments[place]? with
        | none => simp [found, isThere] at isValue
        | some argument =>
            cases noName : argument.name with
            | some name => simp [found, isThere, noName] at isValue
            | none =>
                simp only [found, isThere, noName, Option.map_none, Option.map_some,
                  Option.some.injEq] at isValue
                exact .byPlace argument isThere noName isValue (by simpa using others)

theorem Attribute.states_iff {entry : ErrorEntry} :
    applied.States marker entry ↔
      AppliedAttribute.errorEntry? (.ofAttribute applied) marker = some entry := by
  rw [States, assigns_iff, assigns_iff, AppliedAttribute.errorEntry?,
    AppliedAttribute.intArgument?, AppliedAttribute.strArgument?]
  obtain ⟨code, message⟩ := entry
  constructor
  · rintro ⟨isCode, isMessage⟩
    simp only [isCode, isMessage]
  · intro isEntry
    split at isEntry
    · next isCode isMessage =>
      cases isEntry
      split at isCode
      · next isInt =>
        split at isMessage
        · next isStr =>
          cases isCode
          cases isMessage
          exact ⟨isInt, isStr⟩
        · cases isMessage
      · cases isCode
    · cases isEntry

/-- What is read off the attributes of a declaration is what they state. -/
theorem Attribute.stateAll_entries (marker : Marker) (attributes : List Attribute) :
    StateAll marker attributes
      (((attributes.map AppliedAttribute.ofAttribute).filter
        fun applied => marker.accepts applied.name).filterMap
          fun applied => applied.errorEntry? marker) := by
  induction attributes with
  | nil => exact .nil
  | cons applied rest ih =>
      rw [List.map_cons, List.filter_cons]
      by_cases accepted : marker.accepts (AppliedAttribute.ofAttribute applied).name = true
      · rw [if_pos accepted, List.filterMap_cons]
        cases isEntry : AppliedAttribute.errorEntry? (.ofAttribute applied) marker with
        | none =>
            refine .skipped (fun _ entry states => ?_) ih
            rw [states_iff, isEntry] at states
            cases states
        | some entry => exact .entry accepted (states_iff.mpr isEntry) ih
      · rw [if_neg accepted]
        exact .skipped (fun isAccepted => absurd isAccepted accepted) ih

end Entries

/-- Where full names tell the namespace and the types around, every site is
looked up as the very declaration that it was collected from, and its model is
read off that one, whatever overloads and further declarations there are.  The
model has the errors that the attributes of the declaration state, its type
parameters and the using directives that it sees. -/
theorem MarkedSite.selected_eq_origin {marker : Marker} {units : List SourceUnit}
    (tell : FullNamesTell units) (grammar : ResultGrammar) {site : MarkedSite}
    (member : site ∈ MarkedSite.ofUnits marker units) :
    ∃ placed, PlacedMethod.origin? marker units site = some placed ∧ placed.site = site ∧
      (∃ type, (TypeTable.ofUnits units).find? site.fullName = some type ∧
        type.method? marker site.method =
          some (placed.symbol (TypeTable.heads (units.flatMap SourceUnit.types)))) ∧
      (placed.symbol (TypeTable.heads (units.flatMap SourceUnit.types))).nameSpan = site.span ∧
      site.read (TypeTable.ofUnits units) marker grammar =
        placed.reading (TypeTable.heads (units.flatMap SourceUnit.types)) marker grammar site ∧
      ∀ model, (site.read (TypeTable.ofUnits units) marker grammar).outcome = .ok (some model) →
        model.site = site ∧ Attribute.StateAll marker placed.method.attributes model.entries ∧
          model.shape.generics = placed.method.typeParameters ∧
          model.imports = placed.type.scope.usings := by
  obtain ⟨placed, origin, isSite⟩ := MarkedSite.exists_origin member
  have selected := PlacedMethod.selected?_of_origin? tell origin isSite
  refine ⟨placed, origin, isSite, TypeTable.method?_of_selected selected, ?_,
    MarkedSite.read_of_selected grammar selected, fun model read => ?_⟩
  · subst isSite
    rfl
  · obtain ⟨type, method, shape, found, isMethod, isShape, rfl⟩ := MarkedSite.model_of_read read
    obtain ⟨other, isOther, isSymbol⟩ := TypeTable.method?_of_selected selected
    cases found.symm.trans isOther
    cases isMethod.symm.trans isSymbol
    exact ⟨rfl, Attribute.stateAll_entries marker placed.method.attributes,
      (MethodSymbol.payload_of_returnShape isShape).1, rfl⟩

/-- A method `Attack` whose name begins at an offset, annotated with some
codes. -/
private def attack (start : Nat) (codes : List Int) : MethodDecl where
  span := Span.atFileStart "Api.cs"
  attributeLists := codes.map fun code =>
    ⟨Span.atFileStart "Api.cs", none, [⟨Span.atFileStart "Api.cs", ["ErrorResult"],
      [⟨Span.atFileStart "Api.cs", none, .int code⟩,
        ⟨Span.atFileStart "Api.cs", none, .str "Out of range"⟩]⟩]⟩
  modifiers := []
  returnType := .named none [⟨"Result", []⟩] (Span.atFileStart "Api.cs")
  name := "Attack"
  nameSpan := ⟨"Api.cs", ⟨start, 1, start + 1⟩, ⟨start + 6, 1, start + 7⟩⟩
  typeParameters := []
  body := .absent

/-- A file that declares a class `Game.Api` with some overloads of `Attack`. -/
private def apiFile (overloads : List MethodDecl) : SourceUnit where
  path := "Api.cs"
  span := Span.atFileStart "Api.cs"
  usings := []
  members := [.space ⟨Span.atFileStart "Api.cs", "Game", false, [],
    [.type ⟨Span.atFileStart "Api.cs", .classType, "Api", Span.atFileStart "Api.cs", [], [], [],
      overloads.map TypeMember.method⟩]⟩]

/-- Two files declare one class, the first with an overload that is not marked
in front of one that is.  The site of the marked one is looked up as that one, and
its model has the error that is stated there. -/
theorem MarkedSite.selected_eq_origin_of_overloads :
    let units := [apiFile [attack 10 [], attack 30 [1]], apiFile [attack 50 [2]]]
    let site : MarkedSite :=
      ⟨"Game.Api.Attack", "Game", "Api", "Game.Api", "Attack", (attack 30 []).nameSpan⟩
    FullNamesTell units ∧ site ∈ MarkedSite.ofUnits {} units ∧
      ∃ placed, PlacedMethod.origin? {} units site = some placed ∧
        site.read (TypeTable.ofUnits units) {} {} =
          placed.reading (TypeTable.heads (units.flatMap SourceUnit.types)) {} {} site ∧
        ∃ model, (site.read (TypeTable.ofUnits units) {} {}).outcome = .ok (some model) ∧
          model.entries = [⟨1, "Out of range"⟩] ∧
          Attribute.StateAll {} placed.method.attributes [⟨1, "Out of range"⟩] := by
  intro units site
  have tell : FullNamesTell units := by decide
  have member : site ∈ MarkedSite.ofUnits {} units := by decide
  obtain ⟨placed, origin, -, -, -, read, holds⟩ := MarkedSite.selected_eq_origin tell {} member
  have isModel : (site.read (TypeTable.ofUnits units) {} {}).outcome =
      .ok (some ⟨site, [⟨1, "Out of range"⟩], ⟨.void, []⟩, []⟩) := by
    decide
  exact ⟨tell, member, placed, origin, read, _, isModel, rfl, (holds _ isModel).2.1⟩

end ErrorAccessors
