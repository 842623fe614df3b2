/-
# The artifacts of one method

A method needs the shared artifacts of its type, its own accessors and its own
constants.  Of the shared ones only those are made that the ledger does not
hold yet, so that every run makes them once.
-/

import ErrorAccessors.Layout
import ErrorAccessors.Ledger
import ErrorAccessors.Naming

namespace ErrorAccessors

/-- A generated source file, laid out. -/
structure Artifact where
  key : ArtifactKey
  name : String
  text : String
deriving DecidableEq, Repr, Inhabited

/-- The artifact for a key and a template's text. -/
def Artifact.ofTemplate (emission : Emission) (key : ArtifactKey) (text : String) : Artifact :=
  ⟨key, key.name emission.filePrefix, Layout.normalize text⟩

/-- Keep each element that does not occur before it. -/
def distinctTexts (texts : List String) : List String :=
  texts.foldl (fun kept text => if kept.contains text then kept else kept ++ [text]) []

namespace SiteModel

/-- The directives to repeat around the accessors.  Global ones hold
everywhere, and the namespace of the result types is imported by the frame. -/
def repeatedImports (model : SiteModel) (emission : Emission) : List String :=
  let kept := model.imports.filter fun directive =>
    !directive.isGlobal && directive.kind != .ofNamespace emission.runtimeNamespace
  distinctTexts (kept.map (·.text))

/-- The frame of a method's sources without further imports. -/
def frame (model : SiteModel) (emission : Emission) : Frame :=
  ⟨model.site.space, emission.runtimeNamespace, []⟩

/-- The shared artifacts that a method needs. -/
def sharedArtifacts (model : SiteModel) (emission : Emission) : List Artifact :=
  let frame := model.frame emission
  let space := model.site.space
  let typeName := model.site.typeName
  let method := model.site.method
  [.ofTemplate emission (.ofType .resultsFactory space typeName)
      (Template.resultsFactory frame typeName),
    .ofTemplate emission (.ofMethod .errorsProvider space typeName method)
      (Template.errorsProvider frame typeName method),
    .ofTemplate emission (.ofType .errorRepository space typeName)
      (Template.errorRepository frame typeName),
    .ofTemplate emission (.ofType .classErrorsProvider space typeName)
      (Template.classErrorsProvider frame typeName)]

/-- The artifacts of a method alone: its accessors and its constants. -/
def ownArtifacts (model : SiteModel) (settings : Settings) (entries : List NamedEntry) :
    List Artifact :=
  let emission := settings.emission
  let frame := model.frame emission
  let space := model.site.space
  let typeName := model.site.typeName
  let method := model.site.method
  let importing := { frame with imports := model.repeatedImports emission }
  [.ofTemplate emission (.ofMethod .methodErrors space typeName method)
      (Template.methodErrors importing typeName method settings.grammar.resultType model.shape
        entries emission.variant emission.debugSymbol),
    .ofTemplate emission (.ofMethod .methodErrorCodes space typeName method)
      (Template.errorCodes frame typeName method entries)]

end SiteModel

namespace Ledger

/-- Those of some artifacts that are to be made now, and the ledger behind
them. -/
def select (ledger : Ledger) : List Artifact → List Artifact × Ledger
  | [] => ([], ledger)
  | artifact :: rest =>
    if ledger.admits artifact.key then
      let (admitted, later) := (ledger.enter artifact.key).select rest
      (artifact :: admitted, later)
    else ledger.select rest

end Ledger

/-- What came of one method: its artifacts or the reason why there are none,
the warnings, and the ledger behind it. -/
structure Emitted where
  outcome : Except SiteError (List Artifact)
  warnings : List Diagnostic
  ledger : Ledger

/-- Make the artifacts of a method.  A rejected method leaves the ledger as it
was. -/
def SiteModel.emit (model : SiteModel) (settings : Settings) (ledger : Ledger) : Emitted :=
  let named := model.named settings.emission
  match named.outcome with
  | .error error => ⟨.error error, named.warnings, ledger⟩
  | .ok entries =>
    let (shared, later) := ledger.select (model.sharedArtifacts settings.emission)
    ⟨.ok (shared ++ model.ownArtifacts settings entries), named.warnings, later⟩

end ErrorAccessors
