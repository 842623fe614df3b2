/-
# Two runs in step

Two sets of files are generated for alike if their methods correspond one to
one, and corresponding methods stand at corresponding places and are read alike.
What a run makes does not depend on places, and of what a method returns only the
carried type counts, not whether it is awaited.

`seen` says where a place of the first files lies in the second ones.  It is the
identity if only a return type was changed, and constant if places are
disregarded.
-/

import ErrorAccessors.Proofs.SiteLookup
import ErrorAccessors.Proofs.UnplacedBinding

namespace ErrorAccessors

section Relocated

variable (seen : Span → Span)

/-- A site whose method has moved. -/
def MarkedSite.relocated (site : MarkedSite) : MarkedSite :=
  { site with span := seen site.span }

/-- A diagnostic about a place that has moved. -/
def Diagnostic.relocated (diagnostic : Diagnostic) : Diagnostic :=
  { diagnostic with span := seen diagnostic.span }

/-- A fault of a site whose method has moved. -/
def SiteFault.relocated (fault : SiteFault) : SiteFault :=
  { fault with site := fault.site.relocated seen }

/-- The record of a site whose method has moved. -/
def SiteRecord.relocated (record : SiteRecord) : SiteRecord where
  site := record.site.relocated seen
  outcome := record.outcome
  warnings := record.warnings.map (Diagnostic.relocated seen)

/-- The report of a run over files in which places have moved. -/
def GenerationReport.relocated (report : GenerationReport) : GenerationReport :=
  ⟨report.records.map (SiteRecord.relocated seen)⟩

namespace GenerationReport

variable (report : GenerationReport)

@[simp] theorem relocated_artifacts : (report.relocated seen).artifacts = report.artifacts := by
  rw [artifacts, relocated, List.flatMap_map]
  rfl

/-- A report from which nothing has moved. -/
@[simp] theorem relocated_id : report.relocated id = report := by
  have sameRecord (record : SiteRecord) : record.relocated id = record := by
    simp only [SiteRecord.relocated, MarkedSite.relocated, id]
    congr 1
    exact List.map_id'' (fun _ => rfl) record.warnings
  rw [relocated, List.map_congr_left fun record _ => sameRecord record, List.map_id']

end GenerationReport

end Relocated

namespace Naming

variable (seen : Span → Span)

/-- An outcome whose warnings are about places that have moved. -/
def movedWarnings {α : Type} (warned : Warned α) : Warned α :=
  ⟨warned.outcome, warned.warnings.map (Diagnostic.relocated seen)⟩

theorem checkCode_relocated (policy : DuplicateCodes) (site : MarkedSite)
    (earlier : List NamedEntry) (code : Int) :
    checkCode policy (site.relocated seen) earlier code =
      movedWarnings seen (checkCode policy site earlier code) := by
  unfold checkCode
  split
  · cases policy <;> rfl
  · rfl

theorem chooseName_relocated (policy : NameCollisions) (site : MarkedSite)
    (earlier : List NamedEntry) (entry : ErrorEntry) :
    chooseName policy (site.relocated seen) earlier entry =
      movedWarnings seen (chooseName policy site earlier entry) := by
  have reserves : reserved (site.relocated seen).method = reserved site.method := rfl
  simp only [chooseName, reserves]
  split
  · cases policy <;> rfl
  · rfl

/-- Where a method stands shows in the warnings alone. -/
theorem nameBehind_relocated (emission : Emission) (site : MarkedSite) (entries : List ErrorEntry)
    (earlier : List NamedEntry) :
    nameBehind emission (site.relocated seen) earlier entries =
      movedWarnings seen (nameBehind emission site earlier entries) := by
  induction entries generalizing earlier with
  | nil => rfl
  | cons entry rest ih =>
      rw [nameBehind, nameBehind, checkCode_relocated, chooseName_relocated]
      cases checked : (checkCode emission.duplicateCodes site earlier entry.code).outcome with
      | error error => simp only [movedWarnings, checked]
      | ok done =>
          cases chosen : (chooseName emission.nameCollisions site earlier entry).outcome with
          | error error => simp only [movedWarnings, checked, chosen, List.map_append]
          | ok name =>
              simp only [ih]
              simp only [movedWarnings, checked, chosen, List.map_append]

end Naming

section InStep

variable (seen : Span → Span)

/-- Two models from which the same is made, but for the places in warnings. -/
structure SiteModel.InStep (model other : SiteModel) : Prop where
  site : other.site = model.site.relocated seen
  entries : other.entries = model.entries
  carried : other.shape.payload.type? = model.shape.payload.type?
  generics : other.shape.generics = model.shape.generics
  imports : ∀ emission, other.repeatedImports emission = model.repeatedImports emission

/-- Two readings of a site that lead to the same, but for the places in
warnings. -/
inductive SiteReading.InStep : SiteReading → SiteReading → Prop
  | failed {error : SiteError} {warnings : List Diagnostic} :
      InStep ⟨.error error, warnings⟩
        ⟨.error error, warnings.map (Diagnostic.relocated seen)⟩
  | dropped {warnings : List Diagnostic} :
      InStep ⟨.ok none, warnings⟩ ⟨.ok none, warnings.map (Diagnostic.relocated seen)⟩
  | read {model other : SiteModel} {warnings : List Diagnostic} (models : model.InStep seen other) :
      InStep ⟨.ok (some model), warnings⟩
        ⟨.ok (some other), warnings.map (Diagnostic.relocated seen)⟩

variable {seen}

/-- The accessors do not tell whether what they carry was awaited. -/
private theorem Template.methodErrors_congr {shape other : ReturnShape}
    (carried : other.payload.type? = shape.payload.type?)
    (generics : other.generics = shape.generics)
    (frame : Frame) (typeName method resultType : String) (entries : List NamedEntry)
    (variant : Variant) (debugSymbol : String) :
    Template.methodErrors frame typeName method resultType other entries variant debugSymbol =
      Template.methodErrors frame typeName method resultType shape entries variant debugSymbol := by
  have sameAccessor : Template.accessor resultType other = Template.accessor resultType shape := by
    funext withMessage named
    rw [Template.accessor, Template.accessor, carried, generics]
  have sameClass : Template.accessorClass method resultType other entries =
      Template.accessorClass method resultType shape entries := by
    funext withMessage
    rw [Template.accessorClass, Template.accessorClass, sameAccessor]
  rw [Template.methodErrors, Template.methodErrors, sameClass]

namespace SiteModel.InStep

variable {model other : SiteModel} (models : model.InStep seen other) (settings : Settings)

include models

theorem named :
    other.named settings.emission = Naming.movedWarnings seen (model.named settings.emission) := by
  rw [SiteModel.named, SiteModel.named, models.site, models.entries, Naming.nameBehind_relocated]

theorem sharedArtifacts :
    other.sharedArtifacts settings.emission = model.sharedArtifacts settings.emission := by
  simp only [SiteModel.sharedArtifacts, SiteModel.frame, models.site]
  rfl

theorem ownArtifacts (entries : List NamedEntry) :
    other.ownArtifacts settings entries = model.ownArtifacts settings entries := by
  simp only [SiteModel.ownArtifacts, SiteModel.frame, models.site, models.imports,
    Template.methodErrors_congr models.carried models.generics]
  rfl

theorem emit (ledger : Ledger) :
    other.emit settings ledger =
      { model.emit settings ledger with
        warnings := (model.emit settings ledger).warnings.map (Diagnostic.relocated seen) } := by
  have named := models.named settings
  cases outcome : (model.named settings.emission).outcome with
  | error error =>
      have unnamed : (other.named settings.emission).outcome = .error error := by
        rw [named, Naming.movedWarnings, outcome]
      rw [emit_of_unnamed outcome, emit_of_unnamed unnamed, named]
      rfl
  | ok entries =>
      have isNamed : (other.named settings.emission).outcome = .ok entries := by
        rw [named, Naming.movedWarnings, outcome]
      rw [emit_of_named outcome, emit_of_named isNamed, models.sharedArtifacts,
        models.ownArtifacts, named]
      rfl

end SiteModel.InStep

namespace Generation

variable {table another : TypeTable} {settings : Settings}

/-- One site, read alike from two tables. -/
theorem runSite_inStep {site : MarkedSite}
    (readings : (site.read table settings.marker settings.grammar).InStep seen
      ((site.relocated seen).read another settings.marker settings.grammar)) (ledger : Ledger) :
    runSite another settings ledger (site.relocated seen) =
      ((runSite table settings ledger site).1.relocated seen,
        (runSite table settings ledger site).2) := by
  unfold runSite
  generalize site.read table settings.marker settings.grammar = reading at readings
  generalize (site.relocated seen).read another settings.marker settings.grammar = other at readings
  cases readings with
  | failed => rfl
  | dropped => rfl
  | @read model other warnings models =>
      simp only [models.emit settings ledger]
      cases (model.emit settings ledger).outcome with
      | error error => simp only [SiteRecord.relocated, List.map_append]
      | ok artifacts => simp only [SiteRecord.relocated, List.map_append]

/-- Sites that are read alike from two tables, one after the other. -/
theorem runSites_inStep {sites : List MarkedSite}
    (readings : ∀ site ∈ sites, (site.read table settings.marker settings.grammar).InStep seen
      ((site.relocated seen).read another settings.marker settings.grammar)) (ledger : Ledger) :
    runSites another settings ledger (sites.map (MarkedSite.relocated seen)) =
      (runSites table settings ledger sites).map (SiteRecord.relocated seen) := by
  induction sites generalizing ledger with
  | nil => rfl
  | cons site rest ih =>
      obtain ⟨first, later⟩ := List.forall_mem_cons.mp readings
      rw [List.map_cons, runSites, runSites, runSite_inStep first, List.map_cons]
      exact congrArg (_ :: ·) (ih later _)

end Generation

/-- The first of several sites with one name is the first wherever they stand. -/
theorem MarkedSite.distinct_relocated (seen : Span → Span) (sites : List MarkedSite) :
    distinct (sites.map (relocated seen)) = (distinct sites).map (relocated seen) := by
  refine foldl_keepFirst_map ?_ ?_ ?_ sites []
  all_goals exact fun _ => rfl

/-- Corresponding methods of two sets of files: both are marked or none is, they
are reported under the same names, and the same is read off them. -/
structure PlacedMethod.InStep (seen : Span → Span) (marker : Marker) (grammar : ResultGrammar)
    (known others : List DeclaredType) (placed other : PlacedMethod) : Prop where
  isMarked : other.isMarked marker = placed.isMarked marker
  site : other.site = placed.site.relocated seen
  reading : ∀ site, (placed.reading known marker grammar site).InStep seen
    (other.reading others marker grammar (site.relocated seen))

/-- An attribute that has moved. -/
def AppliedAttribute.relocated (seen : Span → Span) (applied : AppliedAttribute) :
    AppliedAttribute :=
  { applied with span := seen applied.span }

/-- Of the shape of a return type, what the accessors are made from. -/
def ReturnShape.made (shape : ReturnShape) : Option String × List String :=
  (shape.payload.type?, shape.generics)

section Symbols

variable {symbol other : MethodSymbol}
  (attributes : other.attributes = symbol.attributes.map (AppliedAttribute.relocated seen))
  (marker : Marker)

include attributes

theorem MethodSymbol.isMarked_relocated : other.isMarked marker = symbol.isMarked marker := by
  rw [isMarked, isMarked, attributes, List.any_map]
  rfl

private theorem MethodSymbol.annotations_relocated :
    other.annotations marker =
      (symbol.annotations marker).map (AppliedAttribute.relocated seen) := by
  rw [annotations, annotations, attributes, List.filter_map]
  rfl

theorem MethodSymbol.errorEntries_relocated :
    other.errorEntries marker = symbol.errorEntries marker := by
  rw [errorEntries, errorEntries, annotations_relocated attributes, List.filterMap_map]
  rfl

theorem MethodSymbol.annotationWarnings_relocated (name : other.name = symbol.name) :
    other.annotationWarnings marker =
      (symbol.annotationWarnings marker).map (Diagnostic.relocated seen) := by
  rw [annotationWarnings, annotationWarnings, annotations_relocated attributes, List.filter_map,
    List.map_map, List.map_map]
  apply List.map_congr_left
  intro applied _
  show other.unusableAttribute marker (applied.relocated seen) =
    (symbol.unusableAttribute marker applied).relocated seen
  rw [unusableAttribute, name]
  rfl

end Symbols

/-- Directives are repeated by what they bring into scope. -/
private theorem SiteModel.repeatedImports_congr {model other : SiteModel} (emission : Emission)
    (same : other.imports.map UsingDirective.unplaced = model.imports.map UsingDirective.unplaced) :
    other.repeatedImports emission = model.repeatedImports emission := by
  have ofUnplaced (imports : List UsingDirective) :
      (imports.filter fun directive =>
          !directive.isGlobal && directive.kind != .ofNamespace emission.runtimeNamespace).map
        (·.text) =
      ((imports.map UsingDirective.unplaced).filter fun directive =>
          !directive.isGlobal && directive.kind != .ofNamespace emission.runtimeNamespace).map
        (·.text) := by
    rw [List.filter_map, List.map_map]
    rfl
  rw [repeatedImports, repeatedImports, ofUnplaced, same, ← ofUnplaced]

/-- Methods go in step if the one has the attributes of the other, each at its
place, and the accessors of both are made from the same. -/
theorem PlacedMethod.InStep.of_symbol {marker : Marker} {grammar : ResultGrammar}
    {known others : List DeclaredType} {placed other : PlacedMethod}
    (site : other.site = placed.site.relocated seen)
    (scope : other.type.scope.unplaced = placed.type.scope.unplaced)
    (attributes : (other.symbol others).attributes =
      (placed.symbol known).attributes.map (AppliedAttribute.relocated seen))
    (shape : ((other.symbol others).returnShape grammar).map ReturnShape.made =
      ((placed.symbol known).returnShape grammar).map ReturnShape.made) :
    placed.InStep seen marker grammar known others other where
  isMarked := by
    rw [← symbol_isMarked others other, ← symbol_isMarked known placed]
    exact MethodSymbol.isMarked_relocated attributes marker
  site := site
  reading collected := by
    have name : (other.symbol others).name = (placed.symbol known).name :=
      congrArg MarkedSite.method site
    have usings : other.type.scope.usings.map UsingDirective.unplaced =
        placed.type.scope.usings.map UsingDirective.unplaced := congrArg Scope.usings scope
    simp only [PlacedMethod.reading, MethodSymbol.errorEntries_relocated attributes,
      MethodSymbol.annotationWarnings_relocated attributes marker name]
    generalize (placed.symbol known).returnShape grammar = shapes at shape
    generalize (other.symbol others).returnShape grammar = otherShapes at shape
    cases shapes with
    | error error =>
        cases otherShapes with
        | ok made => cases shape
        | error another =>
            cases shape
            exact .failed
    | ok made =>
        cases otherShapes with
        | error error => cases shape
        | ok otherMade =>
            have same : otherMade.made = made.made := Except.ok.inj shape
            exact .read {
              site := rfl
              entries := rfl
              carried := congrArg Prod.fst same
              generics := congrArg Prod.snd same
              imports := fun emission => SiteModel.repeatedImports_congr emission usings }

/-- A method is read alike in two declarations of a type that have one head and one
scope. -/
theorem PlacedMethod.inStep_of_head {type other : ScopedType} (scope : other.scope = type.scope)
    (head : DeclaredType.ofScoped other = .ofScoped type) (method : MethodDecl) (marker : Marker)
    (grammar : ResultGrammar) (known : List DeclaredType) :
    (PlacedMethod.mk type method).InStep id marker grammar known known ⟨other, method⟩ := by
  have name : other.decl.name = type.decl.name := congrArg DeclaredType.name head
  have fullName : other.fullName = type.fullName := congrArg DeclaredType.fullName head
  have parameters : other.decl.typeParameters = type.decl.typeParameters :=
    congrArg DeclaredType.typeParameters head
  have sameSymbol : (PlacedMethod.mk other method).symbol known =
      (PlacedMethod.mk type method).symbol known := by
    simp only [symbol, scope, name, parameters]
  refine .of_symbol ?_ (congrArg Scope.unplaced scope) ?_ ?_
  · simp only [site, ScopedType.siteOf, scope, name, fullName]
    rfl
  · rw [sameSymbol]
    exact (List.map_id _).symm
  · rw [sameSymbol]

section Lists

variable {α β : Type} {relates : α → β → Prop} {items : List α} {others : List β}

/-- What is found first corresponds. -/
private theorem exists_find?_of_forall₂ {test : α → Bool} (otherTest : β → Bool) {found : α}
    (related : List.Forall₂ relates items others)
    (tests : ∀ item other, relates item other → otherTest other = test item)
    (isFound : items.find? test = some found) :
    ∃ other, others.find? otherTest = some other ∧ relates found other := by
  induction related with
  | nil => cases isFound
  | @cons item other rest more first _ ih =>
      rw [List.find?_cons] at isFound ⊢
      rw [tests item other first]
      split at isFound
      · cases isFound
        exact ⟨other, rfl, first⟩
      · exact ih isFound

end Lists

/-- Only marked methods are looked through for a site. -/
theorem PlacedMethod.selected?_eq_find?_marked (marker : Marker) (units : List SourceUnit)
    (site : MarkedSite) :
    selected? marker units site =
      ((ofUnits units).filter (isMarked marker)).find? fun placed =>
        placed.type.fullName == site.fullName && placed.method.name == site.method := by
  rw [selected?, List.find?_filter]
  congr 1
  funext placed
  simp only [Bool.decide_and, Bool.decide_eq_true]
  exact Bool.and_comm _ _

/-- Runs whose marked methods correspond go in step: they make the same artifacts,
and reject and warn about the same, each at its place. -/
theorem Generation.run_inStep_of_marked {units again : List SourceUnit} {settings : Settings}
    (methods : List.Forall₂
      (PlacedMethod.InStep seen settings.marker settings.grammar
        (TypeTable.heads (units.flatMap SourceUnit.types))
        (TypeTable.heads (again.flatMap SourceUnit.types)))
      ((PlacedMethod.ofUnits units).filter (PlacedMethod.isMarked settings.marker))
      ((PlacedMethod.ofUnits again).filter (PlacedMethod.isMarked settings.marker))) :
    run (.ofUnits again) settings = (run (.ofUnits units) settings).relocated seen := by
  have sites : MarkedSite.ofUnits settings.marker again =
      (MarkedSite.ofUnits settings.marker units).map (MarkedSite.relocated seen) := by
    rw [MarkedSite.ofUnits, MarkedSite.ofUnits, ← MarkedSite.distinct_relocated,
      ← PlacedMethod.map_site_ofUnits, ← PlacedMethod.map_site_ofUnits, List.map_map]
    congr 1
    rw [← List.forall₂_eq_eq_eq, List.forall₂_map_left_iff, List.forall₂_map_right_iff]
    exact methods.flip.imp fun _ _ inStep => inStep.site
  have readings : ∀ site ∈ MarkedSite.ofUnits settings.marker units,
      (site.read (TypeTable.ofUnits units) settings.marker settings.grammar).InStep seen
        ((site.relocated seen).read (TypeTable.ofUnits again) settings.marker
          settings.grammar) := by
    intro site member
    obtain ⟨placed, selected⟩ := PlacedMethod.exists_selected member
    rw [PlacedMethod.selected?_eq_find?_marked] at selected
    obtain ⟨other, isOther, inStep⟩ := exists_find?_of_forall₂
      (fun other => other.type.fullName == (site.relocated seen).fullName &&
        other.method.name == (site.relocated seen).method) methods
      (fun placed other inStep => by
        have fullName : other.type.fullName = placed.type.fullName :=
          congrArg MarkedSite.fullName inStep.site
        have name : other.method.name = placed.method.name := congrArg MarkedSite.method inStep.site
        rw [fullName, name]
        rfl) selected
    rw [← PlacedMethod.selected?_eq_find?_marked] at selected isOther
    rw [MarkedSite.read_of_selected settings.grammar selected,
      MarkedSite.read_of_selected settings.grammar isOther]
    exact inStep.reading site
  show GenerationReport.mk (runSites _ settings .empty (MarkedSite.ofUnits settings.marker again)) =
    _
  rw [sites, runSites_inStep readings]
  rfl

/-- Runs over corresponding methods go in step. -/
theorem Generation.run_inStep {units again : List SourceUnit} {settings : Settings}
    (methods : List.Forall₂
      (PlacedMethod.InStep seen settings.marker settings.grammar
        (TypeTable.heads (units.flatMap SourceUnit.types))
        (TypeTable.heads (again.flatMap SourceUnit.types)))
      (PlacedMethod.ofUnits units) (PlacedMethod.ofUnits again)) :
    run (.ofUnits again) settings = (run (.ofUnits units) settings).relocated seen := by
  apply run_inStep_of_marked
  refine List.rel_filter (fun placed other inStep => ?_) methods
  show placed.isMarked settings.marker = true ↔ other.isMarked settings.marker = true
  rw [inStep.isMarked]

end InStep

end ErrorAccessors
