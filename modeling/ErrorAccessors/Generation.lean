/-
# A generation run

A run takes the marked methods of all files one by one.  What came of each is
recorded: the type of a method may be unknown, the method may be rejected, or
its artifacts are made.  A rejection never ends a run; it is reported, and the
trace source lists it.  The report of a run is what came of its sites, and all
its counts and lists are read off from that.
-/

import ErrorAccessors.Artifact
import ErrorAccessors.SourceSet

namespace ErrorAccessors

/-- What came of a site. -/
inductive SiteOutcome where
  /-- The type of the method is not declared. -/
  | dropped
  | rejected (error : SiteError)
  | emitted (artifacts : List Artifact)
deriving DecidableEq, Repr, Inhabited

/-- A site with what came of it. -/
structure SiteRecord where
  site : MarkedSite
  outcome : SiteOutcome
  warnings : List Diagnostic
deriving DecidableEq, Repr, Inhabited

namespace SiteRecord

/-- The artifacts made for a site. -/
def artifacts (record : SiteRecord) : List Artifact :=
  match record.outcome with
  | .emitted artifacts => artifacts
  | _ => []

/-- The reason why a site was rejected. -/
def error? (record : SiteRecord) : Option SiteError :=
  match record.outcome with
  | .rejected error => some error
  | _ => none

/-- The error that reports a rejected site. -/
def faultDiagnostic (site : MarkedSite) (error : SiteError) : Diagnostic :=
  .error .siteFault
    ("could not generate error accessors for `" ++ site.qualifiedId ++ "`: " ++ error.message)
    site.span

/-- The warnings about a site, and the error if it was rejected. -/
def diagnostics (record : SiteRecord) : List Diagnostic :=
  record.warnings ++ (record.error?.map (faultDiagnostic record.site)).toList

end SiteRecord

/-- A rejected site. -/
structure SiteFault where
  site : MarkedSite
  error : SiteError
deriving DecidableEq, Repr, Inhabited

/-- The line of the trace source about a rejected site. -/
def SiteFault.traceLine (fault : SiteFault) : String :=
  DiagnosticCode.siteFault.text ++ " " ++ fault.site.qualifiedId ++ ": " ++ fault.error.message

/-- What came of the sites of a run, in the order of the sites. -/
structure GenerationReport where
  records : List SiteRecord
deriving DecidableEq, Repr, Inhabited

namespace GenerationReport

/-- The number of sites. -/
def siteCount (report : GenerationReport) : Nat :=
  report.records.length

/-- The number of sites whose type is unknown. -/
def droppedCount (report : GenerationReport) : Nat :=
  report.records.countP fun record => record.outcome == .dropped

/-- All artifacts in the order in which they were made. -/
def artifacts (report : GenerationReport) : List Artifact :=
  report.records.flatMap (·.artifacts)

/-- The rejected sites. -/
def faults (report : GenerationReport) : List SiteFault :=
  report.records.filterMap fun record => record.error?.map fun error => ⟨record.site, error⟩

/-- Whether a site was rejected. -/
def hasFaults (report : GenerationReport) : Bool :=
  !report.faults.isEmpty

/-- All warnings, and one error for every rejected site. -/
def diagnostics (report : GenerationReport) : List Diagnostic :=
  report.records.flatMap (·.diagnostics)

/-- The source that lists the rejected sites, if there are any. -/
def traceSource? (report : GenerationReport) (emission : Emission) : Option (String × String) :=
  if report.hasFaults then
    some (Template.traceName emission.filePrefix,
      Template.trace (report.faults.map SiteFault.traceLine))
  else none

/-- The sources to be written, by name, in the order of writing. -/
def sources (report : GenerationReport) (emission : Emission) : List (String × String) :=
  report.artifacts.map (fun artifact => (artifact.name, artifact.text)) ++
    (report.traceSource? emission).toList

/-- The JSON form of an artifact. -/
def artifactJson (artifact : Artifact) : Json :=
  .obj [("key", artifact.key.toJson), ("name", .str artifact.name), ("text", .str artifact.text)]

/-- The JSON form of a rejected site. -/
def faultJson (fault : SiteFault) : Json :=
  .obj [("site", .str fault.site.qualifiedId), ("span", fault.site.span.toJson),
    ("error", .str fault.error.message)]

/-- The JSON form of a report. -/
def toJson (report : GenerationReport) : Json :=
  .obj [("sites", .nat report.siteCount), ("dropped", .nat report.droppedCount),
    ("artifacts", .list artifactJson report.artifacts), ("faults", .list faultJson report.faults),
    ("diagnostics", .list Diagnostic.toJson report.diagnostics)]

end GenerationReport

namespace Generation

/-- Generate for one site. -/
def runSite (table : TypeTable) (settings : Settings) (ledger : Ledger) (site : MarkedSite) :
    SiteRecord × Ledger :=
  let reading := site.read table settings.marker settings.grammar
  match reading.outcome with
  | .error error => (⟨site, .rejected error, reading.warnings⟩, ledger)
  | .ok none => (⟨site, .dropped, reading.warnings⟩, ledger)
  | .ok (some model) =>
    let made := model.emit settings ledger
    let warnings := reading.warnings ++ made.warnings
    match made.outcome with
    | .error error => (⟨site, .rejected error, warnings⟩, made.ledger)
    | .ok artifacts => (⟨site, .emitted artifacts, warnings⟩, made.ledger)

/-- Generate for sites in turn. -/
def runSites (table : TypeTable) (settings : Settings) : Ledger → List MarkedSite → List SiteRecord
  | _, [] => []
  | ledger, site :: rest =>
    let (record, later) := runSite table settings ledger site
    record :: runSites table settings later rest

/-- Generate for all marked methods of a table. -/
def run (table : TypeTable) (settings : Settings) : GenerationReport :=
  ⟨runSites table settings .empty (MarkedSite.ofUnits settings.marker table.units)⟩

end Generation

end ErrorAccessors
