/-
# Generated sources are read again

What a run puts into its sources comes from two places.  The names of methods, types and
namespaces, the types and the directives were read from files, so they are words, spelled
types and proper directives.  The namespace of the result types, the name of the result
type and the symbol of debug builds come from the settings.  If these are identifiers and
none of them is a keyword, every source of a run is read without a diagnostic.  As nothing
in it carries an attribute, nothing in it breaks the contract of marked methods.
-/

import ErrorAccessors.Proofs.FrameText
import ErrorAccessors.Proofs.PayloadParameters
import ErrorAccessors.Proofs.SourceNames
import ErrorAccessors.ReturnContract

namespace ErrorAccessors

/-- The reserved words of the language. -/
def Lexeme.keywords : List String :=
  ["abstract", "as", "base", "bool", "break", "byte", "case", "catch", "char", "checked", "class",
    "const", "continue", "decimal", "default", "delegate", "do", "double", "else", "enum", "event",
    "explicit", "extern", "false", "finally", "fixed", "float", "for", "foreach", "goto", "if",
    "implicit", "in", "int", "interface", "internal", "is", "lock", "long", "namespace", "new",
    "null", "object", "operator", "out", "override", "params", "private", "protected", "public",
    "readonly", "ref", "return", "sbyte", "sealed", "short", "sizeof", "stackalloc", "static",
    "string", "struct", "switch", "this", "throw", "true", "try", "typeof", "uint", "ulong",
    "unchecked", "unsafe", "ushort", "using", "virtual", "void", "volatile", "while"]

/-- An identifier that is no keyword. -/
structure IsIdentifier (name : String) : Prop where
  isWord : Lexeme.IsWord name.toList
  noKeyword : name ∉ Lexeme.keywords

/-- Settings whose names for the generated code are identifiers. -/
structure Settings.UsesIdentifiers (settings : Settings) : Prop where
  runtimeNamespace : ∃ first others, (∀ part ∈ first :: others, IsIdentifier part) ∧
    settings.emission.runtimeNamespace = ".".intercalate (first :: others)
  debugSymbol : IsIdentifier settings.emission.debugSymbol
  resultType : IsIdentifier settings.grammar.resultType

namespace Settings.UsesIdentifiers

variable {settings : Settings}

/-- The namespace of the result types can be imported. -/
theorem isProper_runtime (uses : settings.UsesIdentifiers) :
    (UsingKind.ofNamespace settings.emission.runtimeNamespace).IsProper true := by
  obtain ⟨first, others, areIdentifiers, isName⟩ := uses.runtimeNamespace
  refine .ofNamespace ⟨isName, fun word member => (areIdentifiers word member).isWord⟩ ⟨?_, nofun⟩
  rintro rfl
  exact (areIdentifiers _ List.mem_cons_self).noKeyword (by decide)

/-- So it is where the parts of generated code have their default names. -/
theorem of_defaults (runtime : settings.emission.runtimeNamespace = "TDS.Results")
    (symbol : settings.emission.debugSymbol = "DEBUG")
    (result : settings.grammar.resultType = "Result") :
    settings.UsesIdentifiers where
  runtimeNamespace := by
    have areIdentifiers : ∀ part ∈ ["TDS", "Results"], IsIdentifier part :=
      List.forall_mem_cons.mpr ⟨⟨by decide, by decide⟩,
        List.forall_mem_singleton.mpr ⟨by decide, by decide⟩⟩
    exact ⟨"TDS", ["Results"], areIdentifiers, runtime⟩
  debugSymbol := symbol ▸ ⟨by decide, by decide⟩
  resultType := result ▸ ⟨by decide, by decide⟩

theorem resultType_not_mem (uses : settings.UsesIdentifiers) :
    settings.grammar.resultType ∉ Parser.plainTypeWords := by
  have keywords : ∀ word ∈ Parser.plainTypeWords, word ∈ Lexeme.keywords := by decide
  exact fun member => uses.resultType.noKeyword (keywords _ member)

end Settings.UsesIdentifiers

/-- A model whose names, types and directives were read from files. -/
structure SiteModel.IsProper (model : SiteModel) : Prop where
  space : model.site.space ≠ "" → ∃ first others, IsDottedName model.site.space first others
  typeName : Lexeme.IsWord model.site.typeName.toList
  method : Lexeme.IsWord model.site.method.toList
  shape : Template.IsSpelledShape model.shape
  imports : ∀ directive ∈ model.imports, directive.IsProper

section Models

variable {units : List SourceUnit} {marker : Marker} {grammar : ResultGrammar} {site : MarkedSite}

theorem PlacedMethod.method_mem_of_mem {placed : PlacedMethod} (member : placed ∈ ofUnits units) :
    placed.method ∈ placed.type.decl.ownMethods := by
  obtain ⟨type, -, inType⟩ := List.mem_flatMap.mp member
  obtain ⟨method, own, rfl⟩ := List.mem_map.mp inType
  exact own

/-- What the accessors of a declared method return is spelled like a type. -/
theorem PlacedMethod.isSpelledShape_of_mem (parsed : ∀ unit ∈ units, unit.IsParsed)
    {placed : PlacedMethod} (member : placed ∈ ofUnits units) {shape : ReturnShape}
    (isShape :
      (placed.symbol (TypeTable.heads (units.flatMap SourceUnit.types))).returnShape grammar =
      .ok shape) : Template.IsSpelledShape shape := by
  have proper := (SourceUnit.isProper_of_mem parsed placed.type (type_mem_of_mem member)).methods
    placed.method (method_mem_of_mem member)
  obtain ⟨isGenerics, isPayload⟩ := MethodSymbol.payload_of_returnShape isShape
  refine ⟨fun text carries => ?_, fun name isName => ?_⟩
  · rw [isPayload, Payload.type?_map] at carries
    obtain ⟨carried, isCarried, rfl⟩ := Option.map_eq_some_iff.mp carries
    have spelled : (placed.method.returnType.bind _ placed.inner).IsSpelled :=
      proper.returnType.isSpelled_bind (TypeTable.isProper_of_mem_heads parsed)
    exact (spelled.of_payload isCarried).isTypeCode_render _
  · rw [isGenerics] at isName
    exact proper.typeParameters name isName

/-- A model that is read for a site of parsed files is proper. -/
theorem MarkedSite.isProper_of_read (parsed : ∀ unit ∈ units, unit.IsParsed)
    (isSite : site ∈ ofUnits marker units) {model : SiteModel}
    (read : (site.read (.ofUnits units) marker grammar).outcome = .ok (some model)) :
    model.IsProper := by
  obtain ⟨type, method, shape, found, isMethod, isShape, rfl⟩ := model_of_read read
  obtain ⟨placed, declared, -, -, rfl⟩ := TypeTable.exists_placed_of_method? found isMethod
  obtain ⟨origin, isOrigin, rfl⟩ := exists_origin isSite
  have inUnits := List.mem_of_find?_eq_some isOrigin
  have around :=
    SourceUnit.isProper_of_mem parsed origin.type (PlacedMethod.type_mem_of_mem inUnits)
  have seen := SourceUnit.isProper_of_mem parsed placed.type (PlacedMethod.type_mem_of_mem declared)
  exact ⟨around.scope.space, around.name,
    (around.methods origin.method (PlacedMethod.method_mem_of_mem inUnits)).name,
    PlacedMethod.isSpelledShape_of_mem parsed declared isShape, seen.scope.usings⟩

end Models

section Artifacts

variable {model : SiteModel} {settings : Settings}

/-- Keeping what does not occur before it erases the later copies. -/
theorem distinctTexts_eq_eraseDups (texts : List String) :
    distinctTexts texts = texts.eraseDups := by
  have behind (kept : List String) :
      texts.foldl (fun kept text => if kept.contains text then kept else kept ++ [text]) kept =
        List.eraseDupsBy.loop (· == ·) texts kept.reverse := by
    induction texts generalizing kept with
    | nil => simp [List.eraseDupsBy.loop]
    | cons text texts ih =>
        have sameTest : kept.reverse.any (text == ·) = kept.contains text := by
          rw [List.any_reverse, List.contains_eq_any_beq]
        rw [List.foldl_cons, ih, List.eraseDupsBy.loop, sameTest]
        cases kept.contains text with
        | true => rfl
        | false => simp
  exact behind []

/-- The directives that are repeated are spelled like directives that the model sees and that
are not global. -/
private theorem SiteModel.mem_repeatedImports {text : String}
    (member : text ∈ model.repeatedImports settings.emission) :
    ∃ directive ∈ model.imports, directive.isGlobal = false ∧ text = directive.kind.text := by
  rw [repeatedImports, distinctTexts_eq_eraseDups, List.mem_eraseDups] at member
  obtain ⟨directive, kept, rfl⟩ := List.mem_map.mp member
  obtain ⟨isImport, repeats⟩ := List.mem_filter.mp kept
  have isLocal : directive.isGlobal = false := by
    simp only [Bool.and_eq_true, Bool.not_eq_true'] at repeats
    exact repeats.1
  exact ⟨directive, isImport, isLocal, by simp [UsingDirective.text, isLocal]⟩

/-- The frame of a proper model is proper. -/
theorem SiteModel.IsProper.isProperFrame (proper : model.IsProper)
    (uses : settings.UsesIdentifiers) :
    Template.IsProperFrame (model.frame settings.emission) :=
  ⟨proper.space, uses.isProper_runtime, List.forall_mem_nil _⟩

/-- So it is with the directives that the model sees, as far as they are repeated. -/
theorem SiteModel.IsProper.isProperFrame_importing (proper : model.IsProper)
    (uses : settings.UsesIdentifiers) :
    Template.IsProperFrame { model.frame settings.emission with
      imports := model.repeatedImports settings.emission } := by
  refine ⟨proper.space, uses.isProper_runtime, fun text member => ?_⟩
  obtain ⟨directive, isImport, isLocal, isText⟩ := mem_repeatedImports member
  have isProper : directive.kind.IsProper directive.isGlobal := proper.imports directive isImport
  exact ⟨directive.kind, isLocal ▸ isProper, isText⟩

/-- The texts of the artifacts that a method shares, as the templates write them. -/
def SiteModel.sharedTemplates (model : SiteModel) (emission : Emission) :
    List (ArtifactKey × String) :=
  let frame := model.frame emission
  let space := model.site.space
  let typeName := model.site.typeName
  let method := model.site.method
  [(.ofType .resultsFactory space typeName, Template.resultsFactory frame typeName),
    (.ofMethod .errorsProvider space typeName method,
      Template.errorsProvider frame typeName method),
    (.ofType .errorRepository space typeName, Template.errorRepository frame typeName),
    (.ofType .classErrorsProvider space typeName, Template.classErrorsProvider frame typeName)]

/-- The texts of the artifacts of a method alone, as the templates write them. -/
def SiteModel.ownTemplates (model : SiteModel) (settings : Settings) (entries : List NamedEntry) :
    List (ArtifactKey × String) :=
  let emission := settings.emission
  let frame := model.frame emission
  let space := model.site.space
  let typeName := model.site.typeName
  let method := model.site.method
  let importing := { frame with imports := model.repeatedImports emission }
  [(.ofMethod .methodErrors space typeName method,
      Template.methodErrors importing typeName method settings.grammar.resultType model.shape
        entries emission.variant emission.debugSymbol),
    (.ofMethod .methodErrorCodes space typeName method,
      Template.errorCodes frame typeName method entries)]

theorem SiteModel.sharedArtifacts_eq_templates (emission : Emission) :
    model.sharedArtifacts emission = (model.sharedTemplates emission).map fun template =>
      .ofTemplate emission template.1 template.2 := rfl

theorem SiteModel.ownArtifacts_eq_templates (entries : List NamedEntry) :
    model.ownArtifacts settings entries = (model.ownTemplates settings entries).map fun template =>
      .ofTemplate settings.emission template.1 template.2 := rfl

/-- The shared templates of a proper model make bare files. -/
theorem SiteModel.IsProper.isBareFile_shared (proper : model.IsProper)
    (uses : settings.UsesIdentifiers) :
    ∀ template ∈ model.sharedTemplates settings.emission, Template.IsBareFile template.2 := by
  have frame := proper.isProperFrame uses
  obtain ⟨repository, provider⟩ := Template.isBareFile_shells frame proper.typeName
  intro template member
  simp only [sharedTemplates, List.mem_cons, List.not_mem_nil, or_false] at member
  rcases member with rfl | rfl | rfl | rfl
  · exact Template.isBareFile_resultsFactory frame proper.typeName
  · exact Template.isBareFile_errorsProvider frame proper.typeName proper.method
  · exact repository
  · exact provider

/-- The templates for the accessors and the constants of a proper model make bare files. -/
theorem SiteModel.IsProper.isBareFile_own (proper : model.IsProper)
    (uses : settings.UsesIdentifiers) {entries : List NamedEntry}
    (named : (model.named settings.emission).outcome = .ok entries) :
    ∀ template ∈ model.ownTemplates settings entries, Template.IsBareFile template.2 := by
  have areTexts := areAccessorTexts_named named
  intro template member
  simp only [ownTemplates, List.mem_cons, List.not_mem_nil, or_false] at member
  rcases member with rfl | rfl
  · exact Template.isBareFile_methodErrors (proper.isProperFrame_importing uses) proper.typeName
      proper.method uses.resultType.isWord uses.resultType_not_mem uses.debugSymbol.isWord
      proper.shape areTexts settings.emission.variant
  · exact Template.isBareFile_errorCodes (proper.isProperFrame uses) proper.typeName proper.method
      areTexts

/-- The shared artifacts of a proper model are read without a diagnostic. -/
theorem SiteModel.IsProper.readsBare_shared (proper : model.IsProper)
    (uses : settings.UsesIdentifiers) :
    ∀ artifact ∈ model.sharedArtifacts settings.emission, ReadsBare artifact.text := by
  rw [sharedArtifacts_eq_templates]
  exact List.forall_mem_map.mpr fun template member =>
    (proper.isBareFile_shared uses template member).readsBare

/-- The accessors and the constants of a proper model are read without a diagnostic. -/
theorem SiteModel.IsProper.readsBare_own (proper : model.IsProper)
    (uses : settings.UsesIdentifiers) :
    ∀ artifact ∈ model.own settings, ReadsBare artifact.text := by
  unfold own
  cases named : (model.named settings.emission).outcome with
  | error error => exact List.forall_mem_nil _
  | ok entries =>
      dsimp only
      rw [ownArtifacts_eq_templates]
      exact List.forall_mem_map.mpr fun template member =>
        (proper.isBareFile_own uses named template member).readsBare

end Artifacts

/-- No contract applies where no attributes stand in front of methods. -/
theorem SourceUnit.violations_of_bare {unit : SourceUnit}
    (bare : ∀ method ∈ unit.methods, method.attributeLists = []) (marker : Marker)
    (grammar : ResultGrammar) : unit.violations marker grammar = [] := by
  have none : unit.methods.filterMap (fun method => method.violation? marker grammar) = [] := by
    refine List.filterMap_eq_nil_iff.mpr fun method member => ?_
    have unmarked : method.isMarked marker = false := by
      simp [MethodDecl.isMarked, MethodDecl.attributes, bare method member]
    simp [MethodDecl.violation?, MethodDecl.contractState, unmarked]
  rw [violations, none, Diagnostic.sort, List.mergeSort_nil]

namespace Generation

variable {units : List SourceUnit} {settings : Settings}

/-- The models that get their artifacts in a run over parsed files are proper. -/
theorem isProper_of_mem_acceptedModels (parsed : ∀ unit ∈ units, unit.IsParsed) :
    ∀ model ∈ acceptedModels settings
      (siteModels (.ofUnits units) settings (MarkedSite.ofUnits settings.marker units)),
      model.IsProper := by
  intro model accepted
  obtain ⟨site, isSite, isModel⟩ := List.mem_filterMap.mp (List.mem_filter.mp accepted).1
  unfold siteModel? at isModel
  split at isModel
  · next read =>
    subst isModel
    exact MarkedSite.isProper_of_read parsed isSite read
  · cases isModel

/-- Every artifact of a run is read without a diagnostic. -/
theorem readsBare_of_mem_artifacts (parsed : ∀ unit ∈ units, unit.IsParsed)
    (uses : settings.UsesIdentifiers) {artifact : Artifact}
    (member : artifact ∈ (run (.ofUnits units) settings).artifacts) : ReadsBare artifact.text := by
  have proper := @isProper_of_mem_acceptedModels units settings parsed
  rcases List.mem_append.mp
    ((artifacts_run_perm units settings).mem_iff.mp member) with shared | own
  · obtain ⟨key, asked, rfl⟩ := List.mem_map.mp shared
    obtain ⟨model, accepted, isKey⟩ := List.mem_flatMap.mp (List.mem_dedup.mp asked)
    refine (proper model accepted).readsBare_shared uses _ ?_
    rw [SiteModel.sharedArtifacts_eq]
    exact List.mem_map_of_mem isKey
  · obtain ⟨model, accepted, isOwn⟩ := List.mem_flatMap.mp own
    exact (proper model accepted).readsBare_own uses artifact isOwn

/-- Every source of a run over parsed files, the trace among them, is read without a
diagnostic, and nothing in it breaks the contract, as long as the settings name the parts
of generated code by identifiers that are no keywords. -/
theorem sources_parse_without_violation (parsed : ∀ unit ∈ units, unit.IsParsed)
    (uses : settings.UsesIdentifiers) :
    ∀ source ∈ (run (.ofUnits units) settings).sources settings.emission, ∀ path,
      ∃ unit, SourceUnit.parse source.2 path = .ok unit ∧
        unit.violations settings.marker settings.grammar = [] := by
  intro source member path
  have reads : ReadsBare source.2 := by
    rcases List.mem_append.mp member with isArtifact | isTrace
    · obtain ⟨artifact, isMade, rfl⟩ := List.mem_map.mp isArtifact
      exact readsBare_of_mem_artifacts parsed uses isMade
    · unfold GenerationReport.traceSource? at isTrace
      split at isTrace
      · obtain rfl := List.mem_singleton.mp isTrace
        exact Template.readsBare_trace _
      · cases isTrace
  obtain ⟨unit, isUnit, bare⟩ := reads path
  exact ⟨unit, isUnit, SourceUnit.violations_of_bare bare settings.marker settings.grammar⟩

/-- A file with a keyword in its namespace, an alias, and two marked methods, one of which is
rejected where no code may be used twice. -/
private def cartText : String :=
  "using Pair = System.Tuple<int, string>; namespace @class.Shop \x7b class Cart \x7b " ++
    "[ErrorResult(-1, \"Not \\\"found\\\"\")] " ++
    "public Task<Result<(T id, Pair[] pairs)>> Find<T>() => null; " ++
    "[ErrorResult(2, \"Gone\")] [ErrorResult(2, \"Lost\")] public Result Drop() => null; \x7d \x7d"

/-- The six artifacts and the trace of a run over that file are read again. -/
theorem sources_parse_without_violation_of_cart :
    let settings : Settings := { emission := { duplicateCodes := .error } }
    ∃ unit, SourceUnit.parse cartText "Cart.cs" = .ok unit ∧
      ((run (.ofUnits [unit]) settings).sources settings.emission).length = 7 ∧
      ∀ source ∈ (run (.ofUnits [unit]) settings).sources settings.emission, ∀ path,
        ∃ read, SourceUnit.parse source.2 path = .ok read ∧
          read.violations settings.marker settings.grammar = [] := by
  intro settings
  have seen : (SourceUnit.parse cartText "Cart.cs").toOption.map (fun unit =>
      ((run (.ofUnits [unit]) settings).sources settings.emission).length) = some 7 := by
    decide +kernel
  obtain ⟨unit, isUnit, parsed, count⟩ := SourceUnit.exists_of_parse seen
  have uses : settings.UsesIdentifiers := .of_defaults rfl rfl rfl
  exact ⟨unit, isUnit, count, sources_parse_without_violation parsed uses⟩

end Generation

end ErrorAccessors
