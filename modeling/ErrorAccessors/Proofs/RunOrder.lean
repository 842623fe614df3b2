/-
# The order of the files does not show

A run visits the files one after the other, and at five places the first of
several things counts: the head of a merged type, the declared type that a name
means, the site of a qualified name, the method that a site is looked up as, and
the model that a shared artifact is made for.  None of them tells the order of
the files, provided that full names tell where a type stands and that no two
marked methods have one qualified name.

Binding uses of a head only what a reference to the type is made from, and the
heads of one full name agree on that.  A site is read off the one declaration
that it was collected from.  The ledger decides which of the models gets a shared
artifact, but its text is a function of its key; and nothing else that a run
reports depends on the ledger.
-/

import ErrorAccessors.Proofs.BindingLaws
import ErrorAccessors.Proofs.SiteLookup

namespace ErrorAccessors

/-- What is seen of the first hit does not depend on the order of a list, if the
same is seen of all hits. -/
private theorem map_find?_of_perm {α β : Type} {test : α → Bool} {view : α → β}
    {reordered items : List α} (same : reordered.Perm items)
    (agree : ∀ first ∈ items, ∀ second ∈ items,
      test first = true → test second = true → view first = view second) :
    (reordered.find? test).map view = (items.find? test).map view := by
  cases found : items.find? test with
  | none =>
      have missing : reordered.find? test = none := by
        rw [List.find?_eq_none] at found ⊢
        intro item member
        exact found item (same.mem_iff.mp member)
      rw [missing]
  | some second =>
      have hit : (reordered.find? test).isSome = true := by
        rw [List.find?_isSome]
        exact ⟨second, same.mem_iff.mpr (List.mem_of_find?_eq_some found), List.find?_some found⟩
      obtain ⟨first, isFirst⟩ := Option.isSome_iff_exists.mp hit
      rw [isFirst, Option.map_some, Option.map_some]
      congr 1
      apply agree first (same.mem_iff.mp (List.mem_of_find?_eq_some isFirst)) second
        (List.mem_of_find?_eq_some found)
      · exact List.find?_some isFirst
      · exact List.find?_some found

/-- Two lists of heads are referred to alike if under every full name both have a
type and references to it are the same, or both have none. -/
def DeclaredType.ReferAlike (first second : List DeclaredType) : Prop :=
  ∀ fullName : String,
    (first.find? fun type => type.fullName == fullName).map reference =
      (second.find? fun type => type.fullName == fullName).map reference

section Binding

variable {first second : List DeclaredType}

/-- A name means types that are referred to alike. -/
theorem BoundSegment.map_reference_declared? (alike : DeclaredType.ReferAlike first second)
    (scope : Scope) (qualifier : Option String) (segments : List BoundSegment) :
    (declared? first scope qualifier segments).map DeclaredType.reference =
      (declared? second scope qualifier segments).map DeclaredType.reference := by
  simp only [declared?, List.map_findSome?]
  congr 1
  funext fullName
  exact alike fullName

theorem BoundSegment.resolve_eq_of_referAlike (alike : DeclaredType.ReferAlike first second)
    (scope : Scope)
    (expandAlias : String → Option BoundType) (qualifier : Option String)
    (segments : List BoundSegment) :
    resolve first scope expandAlias qualifier segments =
      resolve second scope expandAlias qualifier segments := by
  have referred := map_reference_declared? alike scope qualifier segments
  unfold resolve
  cases segments.getLast? with
  | none => rfl
  | some last =>
      cases plain? scope expandAlias qualifier segments with
      | some type => rfl
      | none =>
          cases inFirst : declared? first scope qualifier segments <;>
            cases inSecond : declared? second scope qualifier segments <;>
            simp only [inFirst, inSecond, Option.map_none, Option.map_some, reduceCtorEq,
              Option.some.injEq] at referred
          · rfl
          · show DeclaredType.reference _ _ = DeclaredType.reference _ _
            rw [referred]

mutual

/-- Binding sees of the declared types only how they are referred to. -/
theorem TypeExpr.bindWith_congr (alike : DeclaredType.ReferAlike first second) (scope : Scope)
    (expandAlias : String → Option BoundType) (type : TypeExpr) :
    type.bindWith first scope expandAlias = type.bindWith second scope expandAlias := by
  cases type with
  | predefined keyword span => rw [TypeExpr.bindWith_predefined, TypeExpr.bindWith_predefined]
  | nullable inner span =>
      rw [TypeExpr.bindWith_nullable, TypeExpr.bindWith_nullable,
        inner.bindWith_congr alike scope expandAlias]
  | pointer inner span =>
      rw [TypeExpr.bindWith_pointer, TypeExpr.bindWith_pointer,
        inner.bindWith_congr alike scope expandAlias]
  | array element rank span =>
      rw [TypeExpr.bindWith_array, TypeExpr.bindWith_array,
        element.bindWith_congr alike scope expandAlias]
  | tuple elements span =>
      unfold TypeExpr.bindWith
      rw [TupleElement.bindList_congr alike scope expandAlias elements]
  | named qualifier segments span =>
      unfold TypeExpr.bindWith
      rw [NameSegment.bindList_congr alike scope expandAlias segments]
      exact BoundSegment.resolve_eq_of_referAlike alike scope expandAlias qualifier _

theorem TypeExpr.bindList_congr (alike : DeclaredType.ReferAlike first second) (scope : Scope)
    (expandAlias : String → Option BoundType) (list : List TypeExpr) :
    TypeExpr.bindList first scope expandAlias list =
      TypeExpr.bindList second scope expandAlias list := by
  match list with
  | [] => rw [TypeExpr.bindList, TypeExpr.bindList]
  | type :: rest =>
      rw [TypeExpr.bindList, TypeExpr.bindList, type.bindWith_congr alike scope expandAlias,
        TypeExpr.bindList_congr alike scope expandAlias rest]

theorem NameSegment.bindList_congr (alike : DeclaredType.ReferAlike first second) (scope : Scope)
    (expandAlias : String → Option BoundType) (segments : List NameSegment) :
    NameSegment.bindList first scope expandAlias segments =
      NameSegment.bindList second scope expandAlias segments := by
  match segments with
  | [] => rw [NameSegment.bindList, NameSegment.bindList]
  | ⟨name, arguments⟩ :: rest =>
      rw [NameSegment.bindList, NameSegment.bindList,
        TypeExpr.bindList_congr alike scope expandAlias arguments,
        NameSegment.bindList_congr alike scope expandAlias rest]

theorem TupleElement.bindList_congr (alike : DeclaredType.ReferAlike first second) (scope : Scope)
    (expandAlias : String → Option BoundType) (elements : List TupleElement) :
    TupleElement.bindList first scope expandAlias elements =
      TupleElement.bindList second scope expandAlias elements := by
  match elements with
  | [] => rw [TupleElement.bindList, TupleElement.bindList]
  | ⟨type, name⟩ :: rest =>
      rw [TupleElement.bindList, TupleElement.bindList, type.bindWith_congr alike scope expandAlias,
        TupleElement.bindList_congr alike scope expandAlias rest]

end

theorem TypeExpr.bind_congr (alike : DeclaredType.ReferAlike first second) (type : TypeExpr)
    (scope : Scope) :
    type.bind first scope = type.bind second scope := by
  have aliases : scope.expandAlias first = scope.expandAlias second := by
    ext1 name
    unfold Scope.expandAlias
    congr 1
    ext1 target
    cases TypeExpr.parse target with
    | error diagnostics => rfl
    | ok type => exact congrArg some (TypeExpr.bindWith_congr alike _ _ type)
  rw [bind, bind, aliases]
  exact TypeExpr.bindWith_congr alike scope _ type

theorem PlacedMethod.symbol_congr (alike : DeclaredType.ReferAlike first second)
    (placed : PlacedMethod) :
    placed.symbol first = placed.symbol second := by
  unfold symbol MethodDecl.toSymbol
  rw [TypeExpr.bind_congr alike]

end Binding

section Reordered

variable {units reordered : List SourceUnit} (same : reordered.Perm units)

include same

theorem FullNamesTell.of_perm (tell : FullNamesTell units) : FullNamesTell reordered := by
  have declared := same.flatMap_right SourceUnit.types
  intro first inFirst second inSecond
  exact tell first (declared.mem_iff.mp inFirst) second (declared.mem_iff.mp inSecond)

/-- The heads of reordered files are referred to alike. -/
theorem TypeTable.referAlike_heads (tell : FullNamesTell units) :
    DeclaredType.ReferAlike (heads (reordered.flatMap SourceUnit.types))
      (heads (units.flatMap SourceUnit.types)) := by
  intro fullName
  rw [find?_heads, find?_heads, Option.map_map, Option.map_map]
  apply map_find?_of_perm (same.flatMap_right SourceUnit.types)
  intro first inFirst second inSecond isFirst isSecond
  rw [beq_iff_eq] at isFirst isSecond
  have sameName := isFirst.trans isSecond.symm
  obtain ⟨space, containers⟩ := tell first inFirst second inSecond sameName
  have name : first.decl.name = second.decl.name := by
    simp only [ScopedType.fullName, Scope.qualify, space, containers] at sameName
    exact Text.joinDotted_last_inj (second.scope.space :: second.scope.containers) sameName
  funext arguments
  show (DeclaredType.ofScoped first).reference arguments =
    (DeclaredType.ofScoped second).reference arguments
  simp only [DeclaredType.reference, DeclaredType.ofScoped, space, containers, name]

variable {marker : Marker}
  (differ : ((units.flatMap fun unit => unit.sites marker).map (·.qualifiedId)).Nodup)

include differ

/-- Where the marked methods have different names, a site comes from the same
declaration in every order. -/
theorem PlacedMethod.origin?_of_perm (site : MarkedSite) :
    origin? marker reordered site = origin? marker units site := by
  rw [← map_site_ofUnits, List.map_map] at differ
  have found : (origin? marker reordered site).map id = (origin? marker units site).map id := by
    apply map_find?_of_perm ((same.flatMap_right SourceUnit.types).flatMap_right ofType)
    intro first inFirst second inSecond isFirst isSecond
    rw [Bool.and_eq_true, beq_iff_eq] at isFirst isSecond
    apply List.inj_on_of_nodup_map differ
    · exact List.mem_filter.mpr ⟨inFirst, isFirst.1⟩
    · exact List.mem_filter.mpr ⟨inSecond, isSecond.1⟩
    · exact isFirst.2.trans isSecond.2.symm
  rwa [Option.map_id_fun, id, id] at found

/-- The sites of reordered files are the same ones. -/
theorem MarkedSite.ofUnits_of_perm :
    (ofUnits marker reordered).Perm (ofUnits marker units) := by
  have sites := same.flatMap_right fun unit => unit.sites marker
  have differReordered := (sites.map (·.qualifiedId)).nodup_iff.mpr differ
  unfold ofUnits
  rw [distinct_of_nodup differ, distinct_of_nodup differReordered]
  exact sites

/-- A site is read alike from reordered files. -/
theorem MarkedSite.read_of_perm (tell : FullNamesTell units) (grammar : ResultGrammar)
    {site : MarkedSite} (member : site ∈ ofUnits marker units) :
    site.read (TypeTable.ofUnits reordered) marker grammar =
      site.read (TypeTable.ofUnits units) marker grammar := by
  obtain ⟨placed, origin, isSite⟩ := exists_origin member
  have originReordered := PlacedMethod.origin?_of_perm same differ site
  rw [origin] at originReordered
  have selected := PlacedMethod.selected?_of_origin? tell origin isSite
  have selectedReordered :=
    PlacedMethod.selected?_of_origin? (tell.of_perm same) originReordered isSite
  rw [read_of_selected grammar selected, read_of_selected grammar selectedReordered]
  unfold PlacedMethod.reading
  rw [PlacedMethod.symbol_congr (TypeTable.referAlike_heads same tell)]

end Reordered

namespace SiteRecord

/-- What came of a site, apart from the artifacts. -/
def withoutArtifacts (record : SiteRecord) : SiteRecord where
  site := record.site
  outcome :=
    match record.outcome with
    | .dropped => .dropped
    | .rejected error => .rejected error
    | .emitted _ => .emitted []
  warnings := record.warnings

@[simp] theorem withoutArtifacts_site (record : SiteRecord) :
    record.withoutArtifacts.site = record.site := rfl

@[simp] theorem withoutArtifacts_error? (record : SiteRecord) :
    record.withoutArtifacts.error? = record.error? := by
  unfold withoutArtifacts error?
  cases record.outcome <;> rfl

@[simp] theorem withoutArtifacts_dropped (record : SiteRecord) :
    (record.withoutArtifacts.outcome == .dropped) = (record.outcome == .dropped) := by
  unfold withoutArtifacts
  cases record.outcome <;> rfl

@[simp] theorem withoutArtifacts_diagnostics (record : SiteRecord) :
    record.withoutArtifacts.diagnostics = record.diagnostics := by
  unfold diagnostics
  rw [withoutArtifacts_error?]
  rfl

end SiteRecord

namespace Generation

/-- The ledger decides about artifacts alone. -/
theorem withoutArtifacts_runSite (table : TypeTable) (settings : Settings) (ledger : Ledger)
    (site : MarkedSite) :
    (runSite table settings ledger site).1.withoutArtifacts =
      (runSite table settings .empty site).1.withoutArtifacts := by
  unfold runSite
  cases read : (site.read table settings.marker settings.grammar).outcome with
  | error error => simp only [read]
  | ok model? =>
      cases model? with
      | none => simp only [read]
      | some model =>
          simp only [read]
          cases named : (model.named settings.emission).outcome with
          | error error =>
              rw [SiteModel.emit_of_unnamed named, SiteModel.emit_of_unnamed named]
          | ok entries =>
              rw [SiteModel.emit_of_named named, SiteModel.emit_of_named named]
              rfl

/-- Apart from artifacts, what came of a site depends on that site alone. -/
theorem map_withoutArtifacts_runSites (table : TypeTable) (settings : Settings) (ledger : Ledger)
    (sites : List MarkedSite) :
    (runSites table settings ledger sites).map SiteRecord.withoutArtifacts =
      sites.map fun site => (runSite table settings .empty site).1.withoutArtifacts := by
  induction sites generalizing ledger with
  | nil => rfl
  | cons site rest ih =>
      rw [runSites, List.map_cons, List.map_cons, ih]
      congr 1
      exact withoutArtifacts_runSite table settings ledger site

end Generation

namespace GenerationReport

variable {first second : GenerationReport}
  (same : (first.records.map SiteRecord.withoutArtifacts).Perm
    (second.records.map SiteRecord.withoutArtifacts))

include same

theorem siteCount_of_perm : first.siteCount = second.siteCount := by
  have counted := same.length_eq
  rwa [List.length_map, List.length_map] at counted

theorem droppedCount_of_perm : first.droppedCount = second.droppedCount := by
  have counted := same.countP_eq fun record => record.outcome == .dropped
  simp only [List.countP_map, Function.comp_def, SiteRecord.withoutArtifacts_dropped] at counted
  exact counted

theorem faults_of_perm : first.faults.Perm second.faults := by
  have found := same.filterMap fun record : SiteRecord =>
    record.error?.map fun error => (⟨record.site, error⟩ : SiteFault)
  simp only [List.filterMap_map, Function.comp_def, SiteRecord.withoutArtifacts_error?,
    SiteRecord.withoutArtifacts_site] at found
  exact found

theorem diagnostics_of_perm : first.diagnostics.Perm second.diagnostics := by
  have said := same.flatMap_right SiteRecord.diagnostics
  simp only [List.flatMap_map, SiteRecord.withoutArtifacts_diagnostics] at said
  exact said

end GenerationReport

/-- A run over reordered files makes the same artifacts, rejects the same sites
for the same reasons, counts the same sites and dropped sites, and reports the
same diagnostics, if no two marked methods have one qualified name and full names
tell the namespace and the types around. -/
theorem Generation.run_perm {units reordered : List SourceUnit} (settings : Settings)
    (differ : ((units.flatMap fun unit => unit.sites settings.marker).map (·.qualifiedId)).Nodup)
    (tell : FullNamesTell units) (same : reordered.Perm units) :
    let report := run (.ofUnits units) settings
    let again := run (.ofUnits reordered) settings
    again.artifacts.Perm report.artifacts ∧
      again.faults.Perm report.faults ∧
      again.siteCount = report.siteCount ∧
      again.droppedCount = report.droppedCount ∧
      again.diagnostics.Perm report.diagnostics := by
  have sites := MarkedSite.ofUnits_of_perm same differ
  have read {site : MarkedSite} (member : site ∈ MarkedSite.ofUnits settings.marker reordered) :=
    MarkedSite.read_of_perm same differ tell settings.grammar (sites.mem_iff.mp member)
  have models : (siteModels (.ofUnits reordered) settings
        (MarkedSite.ofUnits settings.marker reordered)).Perm
      (siteModels (.ofUnits units) settings (MarkedSite.ofUnits settings.marker units)) := by
    have readAlike : siteModels (.ofUnits reordered) settings
          (MarkedSite.ofUnits settings.marker reordered) =
        siteModels (.ofUnits units) settings (MarkedSite.ofUnits settings.marker reordered) := by
      apply List.filterMap_congr
      intro site member
      unfold siteModel?
      rw [read member]
    rw [readAlike]
    exact sites.filterMap _
  have records : ((run (.ofUnits reordered) settings).records.map
        SiteRecord.withoutArtifacts).Perm
      ((run (.ofUnits units) settings).records.map SiteRecord.withoutArtifacts) := by
    have ranAlike : (run (.ofUnits reordered) settings).records.map SiteRecord.withoutArtifacts =
        (MarkedSite.ofUnits settings.marker reordered).map fun site =>
          (runSite (.ofUnits units) settings .empty site).1.withoutArtifacts := by
      unfold run
      rw [map_withoutArtifacts_runSites]
      apply List.map_congr_left
      intro site member
      unfold runSite
      rw [read member]
    rw [ranAlike, run, map_withoutArtifacts_runSites]
    exact sites.map _
  refine ⟨?_, GenerationReport.faults_of_perm records, GenerationReport.siteCount_of_perm records,
    GenerationReport.droppedCount_of_perm records, GenerationReport.diagnostics_of_perm records⟩
  calc (run (.ofUnits reordered) settings).artifacts
    List.Perm _ (requestedArtifacts settings _) := artifacts_run_perm reordered settings
    List.Perm _ (requestedArtifacts settings _) := requestedArtifacts_perm settings models
    List.Perm _ (run (.ofUnits units) settings).artifacts :=
      (artifacts_run_perm units settings).symm

/-- A file that adds one method to a class `Game.Api`, annotated with some
codes. -/
private def partOfApi (path method : String) (codes : List Int) : SourceUnit where
  path := path
  span := Span.atFileStart path
  usings := []
  members := [.space ⟨Span.atFileStart path, "Game", false, [],
    [.type ⟨Span.atFileStart path, .classType, "Api", Span.atFileStart path, [], [],
      [⟨"partial", Span.atFileStart path⟩],
      [.method {
        span := Span.atFileStart path
        attributeLists := codes.map fun code =>
          ⟨Span.atFileStart path, none, [⟨Span.atFileStart path, ["ErrorResult"],
            [⟨Span.atFileStart path, none, .int code⟩,
              ⟨Span.atFileStart path, none, .str "Out of range"⟩]⟩]⟩
        modifiers := []
        returnType := .named none [⟨"Result", []⟩] (Span.atFileStart path)
        name := method
        nameSpan := Span.atFileStart path
        typeParameters := []
        body := .absent }]⟩]⟩]

/-- A class in two files, one of its methods rejected: whichever file comes
first, the run makes the six artifacts of the other method and reports the one
fault. -/
theorem Generation.run_perm_of_two_parts :
    let settings : Settings := { emission := { duplicateCodes := .error } }
    let attack := partOfApi "Attack.cs" "Attack" [1]
    let rest := partOfApi "Rest.cs" "Rest" [2, 2]
    let report := run (.ofUnits [attack, rest]) settings
    let again := run (.ofUnits [rest, attack]) settings
    report.artifacts.length = 6 ∧ report.faults.length = 1 ∧
      again.artifacts.Perm report.artifacts ∧ again.faults.Perm report.faults ∧
      again.diagnostics.Perm report.diagnostics := by
  intro settings attack rest report again
  have differ : (([attack, rest].flatMap fun unit => unit.sites settings.marker).map
      (·.qualifiedId)).Nodup := by
    decide
  have tell : FullNamesTell [attack, rest] := by decide
  obtain ⟨artifacts, faults, -, -, diagnostics⟩ :=
    Generation.run_perm settings differ tell (List.Perm.swap attack rest [])
  exact ⟨by decide, by decide, artifacts, faults, diagnostics⟩

end ErrorAccessors
