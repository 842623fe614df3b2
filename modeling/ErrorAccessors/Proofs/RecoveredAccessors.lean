/-
# Accessors are read back

The source with the accessors of a method is read again, and what is read tells the model
that it was made from.  There is one method for each entry and each time that the accessors
are emitted.  It has the name of the entry, it returns a result with what is carried, and it
has the type parameters of the shape.  It stands where the templates put it, and there the
directives hold that are to be repeated, behind the one for the runtime.  Which accessors
carry their messages is seen from the lines of the source.
-/

import ErrorAccessors.Proofs.AccessorLines
import ErrorAccessors.Proofs.GeneratedSources
import ErrorAccessors.Proofs.RunOutcome
import ErrorAccessors.Proofs.SummarizedOutline

namespace ErrorAccessors

section Models

/-- The default settings, but for the build variant. -/
def Settings.ofVariant (variant : Variant) : Settings :=
  { emission := { variant := variant } }

variable {model : SiteModel} {emission : Emission}

/-- Where neither a repeated code nor a taken name rejects a method, its entries are named. -/
theorem SiteModel.exists_named (model : SiteModel) (repeats : emission.duplicateCodes ≠ .error)
    (clashes : emission.nameCollisions ≠ .error) :
    ∃ entries, (model.named emission).outcome = .ok entries := by
  cases outcome : (model.named emission).outcome with
  | ok entries => exact ⟨entries, rfl⟩
  | error error =>
      have plain := Naming.isPlain_nameBehind emission model.site [] model.entries
      have asked := plain.error error outcome
      cases error with
      | duplicateCode method code => exact absurd asked repeats
      | nameCollision method name => exact absurd asked clashes
      | missingMethod typeName method => exact asked.elim
      | unrenderableType text => exact asked.elim

/-- The names of the accessors are words if what is made from the messages are words. -/
theorem SiteModel.areWords_named {entries : List NamedEntry}
    (outcome : (model.named emission).outcome = .ok entries)
    (areWords : ∀ entry ∈ model.entries,
      Lexeme.IsWord (AccessorName.ofMessage entry.message entry.code).toList) :
    ∀ named ∈ entries, IsAccessorText named.name.toList ∧ Lexeme.IsWord named.name.toList := by
  obtain ⟨areEntries, areDerived⟩ := derived_named outcome
  intro named member
  have isDerived := areDerived named member
  refine ⟨isDerived.isAccessorText, isDerived.isWord (areWords named.entry ?_)⟩
  rw [← areEntries]
  exact List.mem_map_of_mem member

private theorem nodup_eraseDups (texts : List String) : texts.eraseDups.Nodup := by
  have step (kept : List String) (text : String) :
      (if kept.contains text then kept else kept ++ [text]) = keepFirst id id id kept text := by
    rw [keepFirst, List.contains_eq_any_beq]
    simp only [id, BEq.comm]
  have nodup := @nodup_map_foldl_keepFirst _ _ id id id (fun _ => rfl) texts [] List.nodup_nil
  rw [List.map_id] at nodup
  rw [← distinctTexts_eq_eraseDups]
  simpa only [distinctTexts, step] using nodup

private theorem ne_runtime {kind : UsingKind} (other : kind ≠ .ofNamespace "TDS.Results") :
    kind.text ≠ "using TDS.Results;" := by
  intro same
  cases kind with
  | ofNamespace name =>
      have spelled : "using " ++ name ++ ";" = "using " ++ "TDS.Results" ++ ";" := same
      rw [String.append_left_inj, String.append_right_inj] at spelled
      exact other (congrArg UsingKind.ofNamespace spelled)
  | ofStatic type => simpa [UsingKind.text] using congrArg String.toList same
  | ofAlias name target =>
      have equals : '=' ∈ "using TDS.Results;".toList := by
        rw [← same]
        simp [UsingKind.text]
      exact absurd equals (by decide)

/-- The namespace of the result types can be imported where no directive is global. -/
private theorem isProper_runtime : (UsingKind.ofNamespace "TDS.Results").IsProper false := by
  have isName : IsDottedName "TDS.Results" "TDS" ["Results"] :=
    ⟨rfl, List.forall_mem_cons.mpr ⟨by decide, List.forall_mem_singleton.mpr (by decide)⟩⟩
  exact .ofNamespace isName ⟨by decide, fun _ => by decide⟩

/-- Directives that are repeated differ from each other and from the one for the runtime. -/
private theorem nodup_usings {directives : List UsingDirective}
    (areRepeated : ∀ directive ∈ directives, directive.isGlobal = false ∧
      directive.kind ≠ .ofNamespace "TDS.Results") :
    ("using TDS.Results;" :: (directives.map (·.text)).eraseDups).Nodup := by
  refine List.nodup_cons.mpr ⟨fun member => ?_, ?_⟩
  · obtain ⟨directive, isRepeated, isText⟩ := List.mem_map.mp (List.mem_eraseDups.mp member)
    obtain ⟨isLocal, other⟩ := areRepeated directive isRepeated
    rw [UsingDirective.text, isLocal] at isText
    exact ne_runtime other isText
  · exact nodup_eraseDups _

/-- The accessors of a proper model are read in their classes, and their lines are kept. -/
private theorem SiteModel.IsProper.parse_accessors (proper : model.IsProper) {carried : String}
    (carries : model.shape.payload.type? = some carried) {type : TypeExpr}
    (isType : TypeExpr.parse carried = .ok type) {entries : List NamedEntry}
    (areTexts : ∀ named ∈ entries,
      IsAccessorText named.name.toList ∧ Lexeme.IsWord named.name.toList)
    (variant : Variant) :
    let emission := (Settings.ofVariant variant).emission
    let frame := { model.frame emission with imports := model.repeatedImports emission }
    let text := Layout.normalize (Template.methodErrors frame model.site.typeName
      model.site.method "Result" model.shape entries variant "DEBUG")
    let repeated := model.imports.filter fun directive =>
      !directive.isGlobal && directive.kind != .ofNamespace "TDS.Results"
    let usings := "using TDS.Results;" :: (repeated.map (·.text)).eraseDups
    let provider := model.site.typeName ++ "ResultsProvider"
    let accessors := entries.map (Template.accessorSummary carried model.shape.generics)
    Template.accessorLines text = variant.messages.flatMap (fun withMessage =>
        entries.map (Template.accessor "Result" model.shape withMessage)) ∧
      ∀ path, ∃ unit, SourceUnit.parse text path = .ok unit ∧
        unit.methods.map (·.summary) = variant.messages.flatMap (fun _ => accessors) ∧
        unit.types.map (·.summary) =
          ⟨model.site.space, [], usings, .classType, provider, []⟩ ::
            variant.messages.map fun _ =>
              ⟨model.site.space, [provider], usings, .classType, model.site.method ++ "Errors",
                accessors⟩ := by
  intro emission frame text repeated usings provider accessors
  have uses : (Settings.ofVariant variant).UsesIdentifiers := .of_defaults rfl rfl rfl
  have isFrame := proper.isProperFrame_importing uses
  have isSymbol : Lexeme.IsWord "DEBUG".toList := by decide
  refine ⟨Template.accessorLines_methodErrors proper.typeName proper.method isSymbol carries
    proper.shape isType areTexts variant isFrame isProper_runtime, fun path => ?_⟩
  obtain ⟨imports, areImports, read⟩ := Template.parse_methodErrors proper.typeName proper.method
    isSymbol carries proper.shape isType areTexts variant isFrame isProper_runtime
  obtain ⟨unit, isUnit, outline⟩ := read path
  have isOutline : unit.unplaced =
      Template.frameOutline path model.site.space "TDS.Results" imports _ := outline
  have isCarried := ((proper.shape.payload carried carries).spelled isType).1
  have areUsings : (.ofNamespace "TDS.Results" :: imports).map UsingKind.text = usings :=
    congrArg ("using TDS.Results;" :: ·) (areImports.symm.trans (distinctTexts_eq_eraseDups _))
  refine ⟨unit, isUnit, ?_, ?_⟩
  · rw [← unit.map_summary_methods_unplaced, isOutline, Template.methods_frameOutline,
      Template.map_summary_methods_providerOutline, isCarried]
  · have differ : ((.ofNamespace "TDS.Results" :: imports).map UsingKind.text).Nodup :=
      areUsings.symm ▸ nodup_usings fun directive member => by
        simpa using (List.mem_filter.mp member).2
    have spelled : ((.ofNamespace "TDS.Results" :: imports).map
        (UsingDirective.mk .nowhere false)).map (·.text) = usings := by
      rw [List.map_map, ← areUsings]
      rfl
    rw [← unit.map_summary_types_unplaced, isOutline, Template.types_frameOutline differ,
      Template.map_summary_scoped_providerOutline, isCarried]
    dsimp only
    rw [spelled]
    rfl

end Models

namespace Generation

variable {units : List SourceUnit} {settings : Settings} {site : MarkedSite} {model : SiteModel}

/-- An artifact is the only one with its key. -/
theorem filter_artifacts_key {artifact : Artifact}
    (member : artifact ∈ (run (.ofUnits units) settings).artifacts) :
    (run (.ofUnits units) settings).artifacts.filter (·.key == artifact.key) = [artifact] := by
  have alone := List.inj_on_of_nodup_map (nodup_map_key_run units settings)
  refine List.perm_singleton.mp ?_
  refine (List.perm_ext_iff_of_nodup ?_ (List.nodup_singleton _)).mpr fun other => ?_
  · exact (List.Nodup.of_map _ (nodup_map_key_run units settings)).filter _
  · rw [List.mem_filter, List.mem_singleton, beq_iff_eq]
    refine ⟨fun ⟨isMade, sameKey⟩ => alone isMade member sameKey, ?_⟩
    rintro rfl
    exact ⟨member, rfl⟩

/-- The artifacts of a method alone are made for every site whose model is read. -/
theorem mem_artifacts_of_mem_own (isSite : site ∈ MarkedSite.ofUnits settings.marker units)
    (read : (site.read (.ofUnits units) settings.marker settings.grammar).outcome =
      .ok (some model))
    {entries : List NamedEntry} (named : (model.named settings.emission).outcome = .ok entries)
    {artifact : Artifact} (member : artifact ∈ model.ownArtifacts settings entries) :
    artifact ∈ (run (.ofUnits units) settings).artifacts := by
  have isModel : siteModel? (.ofUnits units) settings site = some model := by
    rw [siteModel?, read]
  have accepted : model ∈ acceptedModels settings
      (siteModels (.ofUnits units) settings (MarkedSite.ofUnits settings.marker units)) :=
    List.mem_filter.mpr ⟨List.mem_filterMap.mpr ⟨site, isSite, isModel⟩,
      SiteModel.isAccepted_iff.mpr ⟨entries, named⟩⟩
  have isOwn : artifact ∈ model.own settings := by
    rwa [SiteModel.own, named]
  exact (artifacts_run_perm units settings).mem_iff.mpr
    (List.mem_append_right _ (List.mem_flatMap.mpr ⟨model, accepted, isOwn⟩))

/-- The source with the accessors of a site is read as the model says, for every build variant
and whatever is carried, as long as that can be read as a type and the names that are made
from the messages are words. -/
theorem accessors_read_back (parsed : ∀ unit ∈ units, unit.IsParsed)
    (isSite : site ∈ MarkedSite.ofUnits {} units)
    (read : (site.read (.ofUnits units) {} {}).outcome = .ok (some model)) {carried : String}
    (carries : model.shape.payload.type? = some carried) {type : TypeExpr}
    (isType : TypeExpr.parse carried = .ok type)
    (areWords : ∀ entry ∈ model.entries,
      Lexeme.IsWord (AccessorName.ofMessage entry.message entry.code).toList)
    (variant : Variant) :
    let repeated := model.imports.filter fun directive =>
      !directive.isGlobal && directive.kind != .ofNamespace "TDS.Results"
    let usings := "using TDS.Results;" :: (repeated.map (·.text)).eraseDups
    let provider := site.typeName ++ "ResultsProvider"
    ∃ entries artifact,
      (model.named (Settings.ofVariant variant).emission).outcome = .ok entries ∧
      entries.map (·.entry) = model.entries ∧
      (run (.ofUnits units) (.ofVariant variant)).artifacts.filter
          (·.key == .ofMethod .methodErrors site.space site.typeName site.method) = [artifact] ∧
      Template.accessorLines artifact.text = variant.messages.flatMap (fun withMessage =>
        entries.map (Template.accessor "Result" model.shape withMessage)) ∧
      ∀ path, ∃ unit, SourceUnit.parse artifact.text path = .ok unit ∧
        let accessors := entries.map (Template.accessorSummary carried model.shape.generics)
        unit.methods.map (·.summary) = variant.messages.flatMap (fun _ => accessors) ∧
        unit.types.map (·.summary) =
          ⟨site.space, [], usings, .classType, provider, []⟩ ::
            variant.messages.map fun _ =>
              ⟨site.space, [provider], usings, .classType, site.method ++ "Errors", accessors⟩ := by
  intro repeated usings provider
  have proper := MarkedSite.isProper_of_read parsed isSite read
  obtain rfl : model.site = site := by
    obtain ⟨-, -, -, -, -, -, rfl⟩ := MarkedSite.model_of_read read
    rfl
  let settings := Settings.ofVariant variant
  obtain ⟨entries, named⟩ := @SiteModel.exists_named settings.emission model nofun nofun
  have isMade :=
    @mem_artifacts_of_mem_own units settings _ _ isSite read _ named _ List.mem_cons_self
  obtain ⟨lines, read⟩ := proper.parse_accessors carries isType
    (SiteModel.areWords_named named areWords) variant
  exact ⟨entries, _, named, (SiteModel.derived_named named).1, filter_artifacts_key isMade, lines,
    read⟩

/-- A file with a generic method that carries a tuple, two messages of which the same name is
made, and directives of which some are not repeated. -/
private def gateText : String :=
  "using System.Linq; global using System.IO; namespace Shop.Doors \x7b using TDS.Results; " ++
    "using Key = System.Tuple<int>; using System.Linq; class Gate \x7b " ++
    "[ErrorResult(1, \"Not \\\"found\\\"\")] [ErrorResult(2, \"Not found\")] " ++
    "public async Task<Result<(T, Key[])>> Open<T>() => null; \x7d \x7d"

/-- What a model says of its site. -/
private structure SiteView where
  place : String × String × String
  shape : ReturnShape
  named : Option (List NamedEntry)
  repeated : List String
deriving DecidableEq

private def siteViews (unit : SourceUnit) : List (Option SiteView) :=
  (MarkedSite.ofUnits {} [unit]).map fun site =>
    ((site.read (.ofUnits [unit]) {} {}).outcome.toOption.bind id).map fun model =>
      let repeated := model.imports.filter fun directive =>
        !directive.isGlobal && directive.kind != .ofNamespace "TDS.Results"
      ⟨site.place, model.shape, (model.named (Settings.ofVariant .both).emission).outcome.toOption,
        (repeated.map (·.text)).eraseDups⟩

/-- The accessors of that method are read from the source of a run. -/
theorem accessors_read_back_of_gate :
    let usings := ["using TDS.Results;", "using System.Linq;", "using Key = System.Tuple<int>;"]
    let accessors : List MethodSummary :=
      [⟨"NotFound", "Result<(T, System.Tuple<int>[])>", ["T"]⟩,
        ⟨"NotFound2", "Result<(T, System.Tuple<int>[])>", ["T"]⟩]
    ∃ unit artifact, SourceUnit.parse gateText "Gate.cs" = .ok unit ∧
      (run (.ofUnits [unit]) (.ofVariant .both)).artifacts.filter
          (·.key == .ofMethod .methodErrors "Shop.Doors" "Gate" "Open") = [artifact] ∧
      (Template.accessorLines artifact.text).length = 4 ∧
      ∀ path, ∃ read, SourceUnit.parse artifact.text path = .ok read ∧
        read.methods.map (·.summary) = accessors ++ accessors ∧
        read.types.map (·.summary) =
          [⟨"Shop.Doors", [], usings, .classType, "GateResultsProvider", []⟩,
            ⟨"Shop.Doors", ["GateResultsProvider"], usings, .classType, "OpenErrors", accessors⟩,
            ⟨"Shop.Doors", ["GateResultsProvider"], usings, .classType, "OpenErrors",
              accessors⟩] := by
  intro usings accessors
  let first : ErrorEntry := ⟨1, "Not \"found\""⟩
  let second : ErrorEntry := ⟨2, "Not found"⟩
  have seen : (SourceUnit.parse gateText "Gate.cs").toOption.map siteViews =
      some [some ⟨("Shop.Doors", "Gate", "Open"), ⟨.asyncValue "(T, System.Tuple<int>[])", ["T"]⟩,
        some [⟨"NotFound", first⟩, ⟨"NotFound2", second⟩],
        ["using System.Linq;", "using Key = System.Tuple<int>;"]⟩] := by
    decide +kernel
  obtain ⟨unit, isUnit, parsed, isView⟩ := SourceUnit.exists_of_parse seen
  obtain ⟨site, areSites, isView⟩ := List.map_eq_singleton_iff.mp isView
  have isSite : site ∈ MarkedSite.ofUnits {} [unit] := areSites ▸ List.mem_singleton_self site
  obtain ⟨model, -, read, -⟩ := MarkedSite.exists_model parsed isSite {}
  rw [read] at isView
  simp only [Except.toOption, Option.bind_some, id, Option.map_some, Option.some.injEq,
    SiteView.mk.injEq, Prod.mk.injEq, MarkedSite.place] at isView
  obtain ⟨⟨isSpace, isTypeName, isMethod⟩, isShape, isNamed, areUsings⟩ := isView
  have named : (model.named (Settings.ofVariant .both).emission).outcome =
      .ok [⟨"NotFound", first⟩, ⟨"NotFound2", second⟩] := by
    cases outcome : (model.named (Settings.ofVariant .both).emission).outcome with
    | error error => simp [outcome] at isNamed
    | ok entries => simpa [outcome] using isNamed
  have areWords : ∀ entry ∈ model.entries,
      Lexeme.IsWord (AccessorName.ofMessage entry.message entry.code).toList := by
    rw [← (SiteModel.derived_named named).1]
    decide +kernel
  have carries : model.shape.payload.type? = some "(T, System.Tuple<int>[])" := by
    rw [isShape]
    rfl
  obtain ⟨type, isType⟩ : ∃ type, TypeExpr.parse "(T, System.Tuple<int>[])" = .ok type := by
    have isRead : (TypeExpr.parse "(T, System.Tuple<int>[])").isOk = true := by decide +kernel
    cases outcome : TypeExpr.parse "(T, System.Tuple<int>[])" with
    | error error => simp [outcome, Except.isOk, Except.toBool] at isRead
    | ok type => exact ⟨type, rfl⟩
  obtain ⟨entries, artifact, isOutcome, -, artifacts, lines, isRead⟩ :=
    accessors_read_back parsed isSite read carries isType areWords .both
  obtain rfl := Except.ok.inj (isOutcome.symm.trans named)
  rw [isSpace, isTypeName, isMethod] at artifacts
  refine ⟨unit, artifact, isUnit, artifacts, by rw [lines]; rfl, fun path => ?_⟩
  obtain ⟨other, isOther, methods, types⟩ := isRead path
  rw [isShape] at methods types
  rw [isSpace, isTypeName, isMethod, areUsings] at types
  exact ⟨other, isOther, methods, types⟩

end Generation

end ErrorAccessors
