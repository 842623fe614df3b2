/-
# What comes of the sites of a run

For sources that were read, a run settles every site in one of two ways.  Either
the accessors and constants of the method are made, or the method is rejected
because the settings ask for that, and the run reports it by one error.  No site
is dropped, no method is missing from its type and no return type is impossible
to spell, since every site is looked up as a declaration and every type that was
read can be spelled.

The two ways exclude each other, so the counts of a report add up.
-/

import ErrorAccessors.Proofs.ProperBinding

namespace ErrorAccessors

/-- A diagnostic that is neither an error nor a report about a rejected site. -/
def Diagnostic.IsMereWarning (diagnostic : Diagnostic) : Prop :=
  diagnostic.isError = false ∧ diagnostic.code ≠ DiagnosticCode.siteFault.text

theorem Diagnostic.isMereWarning_warning {code : DiagnosticCode} (other : code ≠ .siteFault)
    (message : String) (span : Span) :
    (Diagnostic.warning code message span).IsMereWarning :=
  ⟨rfl, fun same => other (DiagnosticCode.text_injective same)⟩

/-- A rejection that the settings ask for. -/
def SiteError.IsAskedFor (emission : Emission) : SiteError → Prop
  | .duplicateCode _ _ => emission.duplicateCodes = .error
  | .nameCollision _ _ => emission.nameCollisions = .error
  | .missingMethod _ _ => False
  | .unrenderableType _ => False

/-- Whatever is found out on the way is only warned about, and a failure is one
that the settings ask for. -/
structure Warned.IsPlain {α : Type} (emission : Emission) (warned : Warned α) : Prop where
  warnings : ∀ warning ∈ warned.warnings, warning.IsMereWarning
  error : ∀ error, warned.outcome = .error error → error.IsAskedFor emission

namespace Naming

variable (emission : Emission) (site : MarkedSite) (earlier : List NamedEntry)

theorem isPlain_checkCode (code : Int) :
    (checkCode emission.duplicateCodes site earlier code).IsPlain emission := by
  unfold checkCode
  split
  · cases policy : emission.duplicateCodes with
    | error =>
        refine ⟨List.forall_mem_nil _, fun error failed => ?_⟩
        cases failed
        exact policy
    | warn =>
        exact ⟨List.forall_mem_singleton.mpr (Diagnostic.isMereWarning_warning (by decide) _ _),
          nofun⟩
    | allow => exact ⟨List.forall_mem_nil _, nofun⟩
  · exact ⟨List.forall_mem_nil _, nofun⟩

theorem isPlain_chooseName (entry : ErrorEntry) :
    (chooseName emission.nameCollisions site earlier entry).IsPlain emission := by
  simp only [chooseName]
  split
  · cases policy : emission.nameCollisions with
    | error =>
        refine ⟨List.forall_mem_nil _, fun error failed => ?_⟩
        cases failed
        exact policy
    | suffix =>
        exact ⟨List.forall_mem_singleton.mpr (Diagnostic.isMereWarning_warning (by decide) _ _),
          nofun⟩
  · exact ⟨List.forall_mem_nil _, nofun⟩

theorem isPlain_nameBehind (entries : List ErrorEntry) :
    (nameBehind emission site earlier entries).IsPlain emission := by
  induction entries generalizing earlier with
  | nil => exact ⟨List.forall_mem_nil _, nofun⟩
  | cons entry rest ih =>
      have code := isPlain_checkCode emission site earlier entry.code
      have chosen := isPlain_chooseName emission site earlier entry
      unfold nameBehind
      cases checked : (checkCode emission.duplicateCodes site earlier entry.code).outcome with
      | error error =>
          simp only [checked]
          exact ⟨code.warnings, fun other failed => by cases failed; exact code.error error checked⟩
      | ok done =>
          simp only [checked]
          cases named : (chooseName emission.nameCollisions site earlier entry).outcome with
          | error error =>
              exact ⟨List.forall_mem_append.mpr ⟨code.warnings, chosen.warnings⟩,
                fun other failed => by cases failed; exact chosen.error error named⟩
          | ok name =>
              have later := ih (earlier ++ [⟨name, entry⟩])
              refine ⟨?_, later.error⟩
              exact List.forall_mem_append.mpr
                ⟨List.forall_mem_append.mpr ⟨code.warnings, chosen.warnings⟩, later.warnings⟩

end Naming

section Models

variable {units : List SourceUnit} {marker : Marker} {site : MarkedSite}

/-- The return type of a method of parsed files has a shape. -/
theorem PlacedMethod.exists_returnShape (parsed : ∀ unit ∈ units, unit.IsParsed)
    {placed : PlacedMethod} (member : placed ∈ PlacedMethod.ofUnits units)
    (grammar : ResultGrammar) :
    ∃ shape,
      (placed.symbol (TypeTable.heads (units.flatMap SourceUnit.types))).returnShape grammar =
        .ok shape := by
  let known := TypeTable.heads (units.flatMap SourceUnit.types)
  have named : ∀ head ∈ known, head.name ≠ "" := fun head isHead =>
    (TypeTable.isWord_of_mem_heads parsed head isHead).ne_empty
  have bound : (placed.symbol known).returnType.IsProper :=
    (PlacedMethod.isProper_of_mem parsed member).bind named
  have spelled {type : BoundType} (proper : type.IsProper) :
      (placed.symbol known).spell type = .ok (type.render placed.method.typeParameters) :=
    if_neg (proper.render_ne_empty _)
  simp only [MethodSymbol.returnShape]
  cases carried : grammar.payload (placed.symbol known).returnType with
  | void => exact ⟨_, rfl⟩
  | value type =>
      simp only [known] at spelled
      simp only [spelled (bound.of_payload (by rw [carried]; rfl))]
      exact ⟨_, rfl⟩
  | asyncValue type =>
      simp only [known] at spelled
      simp only [spelled (bound.of_payload (by rw [carried]; rfl))]
      exact ⟨_, rfl⟩

/-- Every site of parsed files has a model.  What is said on the way to it are
warnings. -/
theorem MarkedSite.exists_model (parsed : ∀ unit ∈ units, unit.IsParsed)
    (member : site ∈ MarkedSite.ofUnits marker units) (grammar : ResultGrammar) :
    ∃ model : SiteModel, model.site = site ∧
      (site.read (TypeTable.ofUnits units) marker grammar).outcome = .ok (some model) ∧
      ∀ warning ∈ (site.read (TypeTable.ofUnits units) marker grammar).warnings,
        warning.IsMereWarning := by
  obtain ⟨placed, selected⟩ := PlacedMethod.exists_selected member
  obtain ⟨shape, isShape⟩ :=
    PlacedMethod.exists_returnShape parsed (List.mem_of_find?_eq_some selected) grammar
  rw [MarkedSite.read_of_selected grammar selected]
  refine ⟨_, rfl, by rw [PlacedMethod.reading, isShape]; rfl, ?_⟩
  refine List.forall_mem_map.mpr fun applied _ => ?_
  exact Diagnostic.isMereWarning_warning (by decide) _ _

end Models

/-- The keys of the artifacts that belong to the method of a site alone. -/
def MarkedSite.ownKeys (site : MarkedSite) : List ArtifactKey :=
  [.ofMethod .methodErrors site.space site.typeName site.method,
    .ofMethod .methodErrorCodes site.space site.typeName site.method]

namespace SiteRecord

/-- Whether the accessors and the constants of a site were made. -/
def hasOwn (record : SiteRecord) : Bool :=
  record.site.ownKeys.all fun key => record.artifacts.any fun artifact => artifact.key == key

/-- A site is settled if its artifacts were made or the settings ask for its
rejection. -/
inductive IsSettled (emission : Emission) : SiteRecord → Prop
  | emitted {site : MarkedSite} {artifacts : List Artifact} {warnings : List Diagnostic}
      (own : (SiteRecord.mk site (.emitted artifacts) warnings).hasOwn = true)
      (mere : ∀ warning ∈ warnings, warning.IsMereWarning) :
      IsSettled emission ⟨site, .emitted artifacts, warnings⟩
  | rejected {site : MarkedSite} {error : SiteError} {warnings : List Diagnostic}
      (asked : error.IsAskedFor emission) (mere : ∀ warning ∈ warnings, warning.IsMereWarning) :
      IsSettled emission ⟨site, .rejected error, warnings⟩

end SiteRecord

namespace Generation

variable {units : List SourceUnit} {settings : Settings}

/-- A site of parsed files is settled whatever was made before. -/
theorem isSettled_runSite (parsed : ∀ unit ∈ units, unit.IsParsed) {site : MarkedSite}
    (member : site ∈ MarkedSite.ofUnits settings.marker units) (ledger : Ledger) :
    (runSite (TypeTable.ofUnits units) settings ledger site).1.site = site ∧
      (runSite (TypeTable.ofUnits units) settings ledger site).1.IsSettled settings.emission := by
  obtain ⟨model, rfl, read, mere⟩ := MarkedSite.exists_model parsed member settings.grammar
  have plain : (model.named settings.emission).IsPlain settings.emission :=
    Naming.isPlain_nameBehind settings.emission model.site [] model.entries
  simp only [runSite, read]
  cases named : (model.named settings.emission).outcome with
  | error error =>
      rw [SiteModel.emit_of_unnamed named]
      exact ⟨rfl, .rejected (plain.error error named)
        (List.forall_mem_append.mpr ⟨mere, plain.warnings⟩)⟩
  | ok entries =>
      rw [SiteModel.emit_of_named named]
      refine ⟨rfl, .emitted ?_ (List.forall_mem_append.mpr ⟨mere, plain.warnings⟩)⟩
      simp [SiteRecord.hasOwn, SiteRecord.artifacts, MarkedSite.ownKeys, SiteModel.ownArtifacts]

theorem isSettled_runSites (parsed : ∀ unit ∈ units, unit.IsParsed) {sites : List MarkedSite}
    (members : ∀ site ∈ sites, site ∈ MarkedSite.ofUnits settings.marker units)
    (ledger : Ledger) :
    (runSites (TypeTable.ofUnits units) settings ledger sites).map (·.site) = sites ∧
      ∀ record ∈ runSites (TypeTable.ofUnits units) settings ledger sites,
        record.IsSettled settings.emission := by
  induction sites generalizing ledger with
  | nil => exact ⟨rfl, List.forall_mem_nil _⟩
  | cons site rest ih =>
      obtain ⟨first, later⟩ := List.forall_mem_cons.mp members
      obtain ⟨isSite, settled⟩ := isSettled_runSite parsed first ledger
      obtain ⟨areSites, allSettled⟩ :=
        ih later (runSite (TypeTable.ofUnits units) settings ledger site).2
      exact ⟨by rw [runSites, List.map_cons, isSite, areSites],
        List.forall_mem_cons.mpr ⟨settled, allSettled⟩⟩

end Generation

namespace GenerationReport

variable {emission : Emission} {records : List SiteRecord}

theorem faults_cons (record : SiteRecord) (rest : List SiteRecord) :
    faults ⟨record :: rest⟩ =
      (record.error?.map (SiteFault.mk record.site)).toList ++ faults ⟨rest⟩ := by
  simp only [faults, List.filterMap_cons]
  cases record.error? <;> rfl

/-- Every settled site counts once, with the rejected sites or with those whose
artifacts were made. -/
theorem siteCount_of_settled (settled : ∀ record ∈ records, record.IsSettled emission) :
    siteCount ⟨records⟩ = (faults ⟨records⟩).length + records.countP SiteRecord.hasOwn := by
  induction records with
  | nil => rfl
  | cons record rest ih =>
      obtain ⟨first, later⟩ := List.forall_mem_cons.mp settled
      have counted :
          rest.length = (faults ⟨rest⟩).length + rest.countP SiteRecord.hasOwn := ih later
      rw [faults_cons, List.length_append, siteCount, List.length_cons, counted]
      cases first with
      | emitted own mere =>
          rw [List.countP_cons_of_pos own]
          simp only [SiteRecord.error?, Option.map_none, Option.toList_none, List.length_nil]
          omega
      | rejected asked mere =>
          rw [List.countP_cons_of_neg Bool.false_ne_true]
          simp only [SiteRecord.error?, Option.map_some, Option.toList_some, List.length_singleton]
          omega

/-- No settled site was dropped. -/
theorem droppedCount_of_settled (settled : ∀ record ∈ records, record.IsSettled emission) :
    droppedCount ⟨records⟩ = 0 := by
  refine List.countP_eq_zero.mpr fun record member => ?_
  cases settled record member <;> exact Bool.false_ne_true

/-- A test that mere warnings fail and reports about rejected sites pass picks
one diagnostic for every rejected site. -/
theorem filter_diagnostics_of_settled (settled : ∀ record ∈ records, record.IsSettled emission)
    (test : Diagnostic → Bool)
    (fails : ∀ diagnostic : Diagnostic, diagnostic.IsMereWarning → test diagnostic = false)
    (passes : ∀ site error, test (SiteRecord.faultDiagnostic site error) = true) :
    (diagnostics ⟨records⟩).filter test =
      (faults ⟨records⟩).map fun fault => SiteRecord.faultDiagnostic fault.site fault.error := by
  induction records with
  | nil => rfl
  | cons record rest ih =>
      obtain ⟨first, later⟩ := List.forall_mem_cons.mp settled
      have picked : (diagnostics ⟨rest⟩).filter test = _ := ih later
      have parts : diagnostics ⟨record :: rest⟩ = record.diagnostics ++ diagnostics ⟨rest⟩ := rfl
      rw [parts, List.filter_append, picked, faults_cons, List.map_append]
      congr 1
      have none {warnings : List Diagnostic}
          (mere : ∀ warning ∈ warnings, warning.IsMereWarning) : warnings.filter test = [] :=
        List.filter_eq_nil_iff.mpr
          fun warning member => by simp [fails warning (mere warning member)]
      cases first with
      | emitted own mere =>
          simp only [SiteRecord.diagnostics, SiteRecord.error?, Option.map_none, Option.toList_none,
            List.append_nil, none mere, List.map_nil]
      | rejected asked mere =>
          simp only [SiteRecord.diagnostics, SiteRecord.error?, Option.map_some, Option.toList_some,
            List.filter_append, none mere, List.nil_append, List.map_cons, List.map_nil,
            List.filter_cons_of_pos (passes _ _), List.filter_nil]

/-- The settings ask for every rejection. -/
theorem isAskedFor_of_settled (settled : ∀ record ∈ records, record.IsSettled emission) :
    ∀ fault ∈ faults ⟨records⟩, fault.error.IsAskedFor emission := by
  intro fault member
  obtain ⟨record, inRecords, isFault⟩ := List.mem_filterMap.mp member
  cases settled record inRecords with
  | emitted own mere => cases isFault
  | rejected asked mere =>
      cases isFault
      exact asked

end GenerationReport

/-- A run over parsed files settles all their sites and drops none.  Each site
has its accessors and constants or is a fault; each fault is reported by one
error and nothing else is an error; and a fault is a repeated code or a taken
name that the settings do not allow, so under lenient settings there is none. -/
theorem Generation.run_settles {units : List SourceUnit}
    (parsed : ∀ unit ∈ units, unit.IsParsed) (settings : Settings) :
    let report := Generation.run (TypeTable.ofUnits units) settings
    report.records.map (·.site) = MarkedSite.ofUnits settings.marker units ∧
      report.droppedCount = 0 ∧
      report.siteCount = report.faults.length + report.records.countP SiteRecord.hasOwn ∧
      report.diagnostics.filter (·.code == DiagnosticCode.siteFault.text) =
        report.faults.map (fun fault => SiteRecord.faultDiagnostic fault.site fault.error) ∧
      report.diagnostics.filter (·.isError) =
        report.faults.map (fun fault => SiteRecord.faultDiagnostic fault.site fault.error) ∧
      (∀ fault ∈ report.faults,
        (∃ method code, fault.error = .duplicateCode method code) ∨
          ∃ method name, fault.error = .nameCollision method name) ∧
      (settings.emission.duplicateCodes ≠ .error → settings.emission.nameCollisions = .suffix →
        report.faults = []) := by
  intro report
  obtain ⟨areSites, settled⟩ := isSettled_runSites parsed (fun _ => id) .empty
  have asked := GenerationReport.isAskedFor_of_settled settled
  refine ⟨areSites, GenerationReport.droppedCount_of_settled settled,
    GenerationReport.siteCount_of_settled settled, ?_, ?_, fun fault member => ?_,
    fun lenient suffixed => List.eq_nil_iff_forall_not_mem.mpr fun fault member => ?_⟩
  · exact GenerationReport.filter_diagnostics_of_settled settled _
      (fun diagnostic mere => by simpa using mere.2)
      fun _ _ => beq_self_eq_true DiagnosticCode.siteFault.text
  · exact GenerationReport.filter_diagnostics_of_settled settled _
      (fun diagnostic mere => mere.1) fun _ _ => rfl
  · have isAsked := asked fault member
    cases isError : fault.error with
    | duplicateCode method code => exact .inl ⟨method, code, rfl⟩
    | nameCollision method name => exact .inr ⟨method, name, rfl⟩
    | missingMethod typeName method => rw [isError] at isAsked; exact isAsked.elim
    | unrenderableType text => rw [isError] at isAsked; exact isAsked.elim
  · have isAsked := asked fault member
    cases isError : fault.error with
    | duplicateCode method code => rw [isError] at isAsked; exact lenient isAsked
    | nameCollision method name =>
        rw [isError] at isAsked
        have strict : settings.emission.nameCollisions = .error := isAsked
        rw [suffixed] at strict
        cases strict
    | missingMethod typeName method => rw [isError] at isAsked; exact isAsked
    | unrenderableType text => rw [isError] at isAsked; exact isAsked

/-- Two methods of a class; the second one repeats a code. -/
private def repeatingText : String :=
  "class Api \x7b [ErrorResult(1, \"Gone\")] public Result Attack() => null; " ++
    "[ErrorResult(2, \"Late\"), ErrorResult(2, \"Lost\")] public Result Rest() => null; \x7d"

/-- Where repeated codes are not allowed, one of the two methods is a fault and
the other one has its artifacts. -/
theorem Generation.run_settles_of_repeatingText :
    ∃ unit, SourceUnit.parse repeatingText "Api.cs" = .ok unit ∧
      let report := Generation.run (TypeTable.ofUnits [unit])
        { emission := { duplicateCodes := .error } }
      report.siteCount = 2 ∧ report.faults.length = 1 ∧
        report.siteCount = report.faults.length + report.records.countP SiteRecord.hasOwn := by
  have counted : (SourceUnit.parse repeatingText "Api.cs").toOption.map (fun unit =>
      let report := Generation.run (TypeTable.ofUnits [unit])
        { emission := { duplicateCodes := .error } }
      (report.siteCount, report.faults.length)) = some (2, 1) := by
    decide +kernel
  obtain ⟨unit, isUnit, parsed, isCounted⟩ := SourceUnit.exists_of_parse counted
  obtain ⟨sites, faults⟩ := Prod.mk.inj isCounted
  have settles := Generation.run_settles parsed { emission := { duplicateCodes := .error } }
  exact ⟨unit, isUnit, sites, faults, settles.2.2.1⟩

end ErrorAccessors
