/-
# Running commands

Each command loads a workspace, reports what is wrong with its sources, and
does its work: `generate` writes the accessor sources and removes old ones,
`check` reports violations of the return contract, `fix` repairs them, and
`explain` tells about a diagnostic code.  With JSON output, every diagnostic and
every result is one line of JSON.
-/

import ErrorAccessors.CommandLine.Arguments
import ErrorAccessors.CommandLine.Workspace
import ErrorAccessors.Diagnostic.Explanation
import ErrorAccessors.Generation
import ErrorAccessors.ReturnContract

namespace ErrorAccessors

open Session

variable {m : Type → Type} [Monad m]

/-- A number of things. -/
def counted (count : Nat) (thing : String) : String :=
  toString count ++ " " ++ thing ++ "(s)"

namespace Command

/-- The number of files that diagnostics are about, given in the order of the
files. -/
def fileCount : List Diagnostic → Nat
  | [] => 0
  | [_] => 1
  | first :: second :: rest =>
    let others := fileCount (second :: rest)
    if Path.compare first.span.file second.span.file = .eq then others else others + 1

/-- The line that sums up a generation run. -/
def generationSummary (report : GenerationReport) (outDir : String) (written removed : Nat) :
    String :=
  "Generated " ++ counted report.artifacts.length "artifact" ++ " for " ++
    counted (report.siteCount - report.droppedCount) "method" ++ " into " ++ outDir ++ " (" ++
    toString written ++ " written, " ++ toString removed ++ " removed)"

/-- Generate sources for a workspace whose sources all have an outline. -/
def generateInto [Files m] (workspace : Workspace) (units : List SourceUnit) (json : Bool) :
    Session m ExitStatus := do
  let emission := workspace.settings.emission
  let directory ← orEnd .output (← SourceDirectory.create workspace.outDir)
  let report := Generation.run (TypeTable.ofUnits units) workspace.settings
  let (directory, outcome) ← directory.addAll (report.sources emission)
  orEnd .output outcome
  let removed ← orEnd .output (← directory.prune emission.filePrefix)
  if json then printLine report.toJson.compact
  else
    workspace.report false report.diagnostics
    printLine (generationSummary report workspace.outDir directory.changed removed.length)
  return .failureIf (Diagnostic.anyError report.diagnostics)

/-- Write the accessor sources, unless a source has no outline. -/
def runGenerate [Files m] (paths : List String) (outDir : Option String)
    (variant : Option Variant) (config : Option String) (json : Bool) : Session m ExitStatus := do
  let loaded ← Workspace.load paths config outDir
  let settings := loaded.settings
  let emission :=
    { settings.emission with variant := variant.getD settings.emission.variant }
  let workspace := { loaded with settings := { settings with emission } }
  let (units, faults) := workspace.outlines
  workspace.report json faults
  if Diagnostic.anyError faults then
    printError ("\nGeneration skipped: " ++ counted (fileCount faults) "file" ++
      " failed to parse")
    return .failure
  generateInto workspace units json

/-- The words on warnings behind other words, if there are warnings. -/
def withWarnings (opening : String) (warnings : Nat) (closing : String) : String :=
  if warnings = 0 then "" else opening ++ counted warnings "warning" ++ closing

/-- Report violations of the return contract. -/
def runCheck [Files m] (paths : List String) (config : Option String) (json : Bool) :
    Session m ExitStatus := do
  let workspace ← Workspace.load paths config none
  let (units, faults) := workspace.outlines
  let settings := workspace.settings
  let found := Diagnostic.sort
    (faults ++ ReturnContract.violations units settings.marker settings.grammar)
  workspace.report json found
  let checked := "Checked " ++ counted workspace.sources.length "file"
  let errors := Diagnostic.errorCount found
  let warnings := Diagnostic.warningCount found
  if 0 < errors then
    printError ("\n" ++ checked ++ ", found " ++ counted errors "error" ++
      withWarnings ", " warnings "")
    return .failure
  unless json do
    if 0 < warnings then printLine (checked ++ ", no errors" ++ withWarnings " (" warnings ")")
    else printLine (checked ++ ", no errors found")
  return .success

/-- A repaired return type. -/
structure RepairRecord where
  file : String
  line : Nat
  before : String
  after : String
deriving DecidableEq, Repr, Inhabited

/-- The JSON form of a repair. -/
def RepairRecord.toJson (record : RepairRecord) : Json :=
  .obj [("file", .str record.file), ("from", .str record.before), ("line", .nat record.line),
    ("to", .str record.after)]

/-- The line that tells of a repair. -/
def RepairRecord.text (record : RepairRecord) : String :=
  record.file ++ ":" ++ toString record.line ++ ": `" ++ record.before ++ "` -> `" ++
    record.after ++ "`"

/-- The repair that a violation suggests. -/
def repairRecord? (path source : String) (violation : Diagnostic) : Option RepairRecord :=
  match violation.suggestions with
  | ⟨_, edit :: _⟩ :: _ =>
    some ⟨path, edit.span.start.line,
      (Text.slice? source edit.span.start.offset edit.span.stop.offset).getD "",
      edit.replacement⟩
  | _ => none

/-- What has been repaired. -/
structure RepairTally where
  methods : Nat := 0
  files : Nat := 0
  records : List RepairRecord := []
deriving DecidableEq, Repr, Inhabited

/-- Repair the methods of a source and write it, unless only a trial is
wanted. -/
def fixUnit [Files m] (workspace : Workspace) (dryRun json : Bool) (tally : RepairTally)
    (unit : SourceUnit) : Session m RepairTally := do
  let settings := workspace.settings
  let violations := unit.violations settings.marker settings.grammar
  if violations.isEmpty then return tally
  let source := workspace.textOf unit.path
  let offsets := violations.map (·.span.start.offset)
  let fixed ← orEnd .repair (unit.repaired settings.grammar source false offsets)
  let records := violations.filterMap (repairRecord? unit.path source)
  unless json do
    printLines (records.map RepairRecord.text)
  unless dryRun do
    orEnd (.unwritable unit.path) (← Files.write unit.path fixed)
  return {
    methods := tally.methods + offsets.length
    files := tally.files + 1
    records := tally.records ++ records }

/-- The lines that sum up repairs. -/
def repairSummary (tally : RepairTally) (dryRun : Bool) : String :=
  if tally.methods = 0 then "No fixable return types found"
  else
    (if dryRun then "\nWould fix " else "\nFixed ") ++ counted tally.methods "return type" ++
      " in " ++ counted tally.files "file"

/-- Repair violations of the return contract.  Sources without an outline are
reported and left as they are. -/
def runFix [Files m] (paths : List String) (dryRun : Bool) (config : Option String)
    (json : Bool) : Session m ExitStatus := do
  let workspace ← Workspace.load paths config none
  let (units, faults) := workspace.outlines
  workspace.report json faults
  let tally ← units.foldlM (fixUnit workspace dryRun json) {}
  if json then
    printLine (Json.obj [("dry_run", .bool dryRun),
      ("fixes", .list RepairRecord.toJson tally.records)]).compact
  else printLine (repairSummary tally dryRun)
  return .failureIf (Diagnostic.anyError faults)

/-- Tell about a diagnostic code, or list the codes if there is none of that
name.  Blanks around the name and its case do not matter. -/
def runExplain (name : String) : Session m ExitStatus := do
  let word := String.ofList ((Unicode.trim name.toList).map Char.toUpper)
  match DiagnosticCode.ofText? word with
  | some code =>
    printLine code.explanation
    return .success
  | none =>
    printErrors (["Unknown diagnostic code: " ++ word, "", "Valid codes:"] ++
      DiagnosticCode.all.map fun code => "  " ++ code.text ++ "  " ++ code.summary)
    return .failure

end Command

/-- Run the command of an invocation. -/
def Invocation.run [Files m] (invocation : Invocation) : Session m ExitStatus :=
  let config := invocation.config
  let json := invocation.json
  match invocation.command with
  | .generate paths outDir variant _ => Command.runGenerate paths outDir variant config json
  | .check paths => Command.runCheck paths config json
  | .fix paths dryRun => Command.runFix paths dryRun config json
  | .explain name => Command.runExplain name

end ErrorAccessors
