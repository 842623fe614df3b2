/-
# What generated sources declare

A template is a text, and what it declares are classes and members of classes.
The outline of a template is the tree of these declarations with every text that
stands around their names, so that the text of the template can be put together
again from it.  What a source declares is then read off its outline: each class
and each member with the namespace and the classes around it.

A source may leave the choice between two build variants to a conditional
compilation symbol.  Of such a choice one side counts, depending on whether the
symbol is defined.
-/

import ErrorAccessors.Proofs.SourceNames

namespace ErrorAccessors

/-- The head of a generated class. -/
structure ClassHead where
  modifiers : String
  isPartial : Bool
  name : String
deriving DecidableEq, Repr

/-- A generated member without members of its own: its name and the texts
around it. -/
structure PlainMember where
  front : String
  name : String
  behind : String
deriving DecidableEq, Repr

/-- The declarations of a generated source. -/
inductive ClassOutline where
  | members (list : List PlainMember)
  /-- A class without members. -/
  | shell (head : ClassHead)
  | nested (head : ClassHead) (body : ClassOutline)
  /-- The first declarations if a symbol is defined, and otherwise the others. -/
  | choice (symbol : String) (first otherwise : ClassOutline)
deriving DecidableEq, Repr

def ClassHead.text (head : ClassHead) : String :=
  head.modifiers ++ (if head.isPartial then " partial" else "") ++ " class " ++ head.name

theorem ClassHead.text_partial (modifiers name : String) :
    (⟨modifiers, true, name⟩ : ClassHead).text = modifiers ++ " partial" ++ " class " ++ name :=
  rfl

theorem ClassHead.text_whole (modifiers name : String) :
    (⟨modifiers, false, name⟩ : ClassHead).text = modifiers ++ "" ++ " class " ++ name :=
  rfl

def PlainMember.text (member : PlainMember) : String :=
  member.front ++ member.name ++ member.behind

theorem PlainMember.text_mk (front name behind : String) :
    (⟨front, name, behind⟩ : PlainMember).text = front ++ name ++ behind :=
  rfl

/-- The text of a generated source without its frame. -/
def ClassOutline.text : ClassOutline → String
  | members list => Template.lines (list.map PlainMember.text)
  | shell head => Template.emptyBlock head.text
  | nested head body => Template.block head.text [body.text]
  | choice symbol first otherwise =>
    Template.lines ["#if " ++ symbol, first.text, "#else", otherwise.text, "#endif"]

theorem ClassOutline.text_members (list : List PlainMember) :
    (members list).text = Template.lines (list.map PlainMember.text) :=
  rfl

theorem ClassOutline.text_shell (head : ClassHead) :
    (shell head).text = Template.emptyBlock head.text :=
  rfl

theorem ClassOutline.text_nested (head : ClassHead) (body : ClassOutline) :
    (nested head body).text = Template.block head.text [body.text] :=
  rfl

/-- A class or a member that a source declares. -/
structure DeclaredMember where
  space : String
  /-- The names of the classes around it, the innermost first. -/
  around : List String
  name : String
  /-- The modifiers, if it is one part of a partial class. -/
  part? : Option String
deriving DecidableEq, Repr

namespace DeclaredMember

/-- Two declarations do not clash.  They stand at different places or have
different names, or they are parts of one partial class. -/
def Agrees (first second : DeclaredMember) : Prop :=
  first.space = second.space → first.around = second.around → first.name = second.name →
    first.part?.isSome = true ∧ first.part? = second.part?

instance (first second : DeclaredMember) : Decidable (first.Agrees second) :=
  inferInstanceAs (Decidable (_ → _ → _ → _))

theorem Agrees.symm {first second : DeclaredMember} (agree : first.Agrees second) :
    second.Agrees first := by
  intro spaces arounds names
  obtain ⟨isPart, parts⟩ := agree spaces.symm arounds.symm names.symm
  exact ⟨parts ▸ isPart, parts.symm⟩

/-- The member has the name of the class that it stands in. -/
def IsNamedLikeItsClass (member : DeclaredMember) : Prop :=
  member.around.head? = some member.name

instance (member : DeclaredMember) : Decidable member.IsNamedLikeItsClass :=
  inferInstanceAs (Decidable (_ = _))

end DeclaredMember

/-- What the head of a class declares. -/
def ClassHead.declared (head : ClassHead) (space : String) (around : List String) :
    DeclaredMember :=
  ⟨space, around, head.name, if head.isPartial then some head.modifiers else none⟩

/-- What an outline declares, from the outside in. -/
def ClassOutline.declared (defined : Bool) (space : String) :
    List String → ClassOutline → List DeclaredMember
  | around, members list => list.map fun member => ⟨space, around, member.name, none⟩
  | around, shell head => [head.declared space around]
  | around, nested head body =>
    head.declared space around :: body.declared defined space (head.name :: around)
  | around, choice _ first otherwise =>
    if defined then first.declared defined space around
    else otherwise.declared defined space around

namespace Template

section Heads

def factoryHead : ClassHead := ⟨"public static", true, "ResultsFactory"⟩

def providerHead (typeName : String) : ClassHead :=
  ⟨"public", true, typeName ++ "ResultsProvider"⟩

def repositoryHead : ClassHead := ⟨"public static", true, "ErrorCodeRepository"⟩

def errorsHead (typeName : String) : ClassHead := ⟨"public static", true, typeName ++ "Errors"⟩

/-- The class of the accessors of a method. -/
def accessorsHead (method : String) : ClassHead := ⟨"public", false, method ++ "Errors"⟩

/-- The class of the constants for the codes of a method. -/
def codesHead (method : String) : ClassHead := ⟨"public static", false, method⟩

theorem text_factoryHead : factoryHead.text = "public static partial class ResultsFactory" := by
  refine (ClassHead.text_partial _ _).trans ?_
  simp only [String.reduceAppend]

theorem text_providerHead (typeName : String) :
    (providerHead typeName).text = providerClass typeName := by
  refine (ClassHead.text_partial _ _).trans ?_
  simp only [String.reduceAppend]
  exact String.append_assoc.symm

theorem text_repositoryHead : repositoryHead.text = repositoryClass := by
  refine (ClassHead.text_partial _ _).trans ?_
  simp only [String.reduceAppend, repositoryClass]

theorem text_errorsHead (typeName : String) :
    (errorsHead typeName).text = errorsClass typeName := by
  refine (ClassHead.text_partial _ _).trans ?_
  simp only [String.reduceAppend]
  exact String.append_assoc.symm

theorem text_accessorsHead (method : String) :
    (accessorsHead method).text = "public class " ++ method ++ "Errors" := by
  rewrite [String.append_assoc]
  refine (ClassHead.text_whole _ _).trans ?_
  simp only [String.reduceAppend]

theorem text_codesHead (method : String) :
    (codesHead method).text = "public static class " ++ method := by
  refine (ClassHead.text_whole _ _).trans ?_
  simp only [String.reduceAppend]

end Heads

section Outlines

variable (frame : Frame) (typeName method : String)

def factoryOutline : ClassOutline :=
  .nested factoryHead
    (.members [⟨"public static " ++ typeName ++ "ResultsProvider ", typeName, " => new();"⟩])

/-- The property that leads to the accessors of a method. -/
def propertyOutline : ClassOutline :=
  .nested (providerHead typeName)
    (.members [⟨"public " ++ method ++ "Errors ", method, " => new();"⟩])

def repositoryOutline : ClassOutline :=
  .nested repositoryHead (.shell (errorsHead typeName))

def codeMember (named : NamedEntry) : PlainMember :=
  ⟨"public const " ++ codeType named.entry.code ++ " ", named.name,
    " = " ++ toString named.entry.code ++ ";"⟩

def codesOutline (entries : List NamedEntry) : ClassOutline :=
  .nested repositoryHead <| .nested (errorsHead typeName) <| .nested (codesHead method) <|
    .members (entries.map codeMember)

def accessorMember (resultType : String) (shape : ReturnShape) (withMessage : Bool)
    (named : NamedEntry) : PlainMember :=
  let code := toString named.entry.code
  let message :=
    if withMessage then ", errorMessage: " ++ StringLiteral.encode named.entry.message else ""
  match shape.payload.type? with
  | none =>
    ⟨"public " ++ resultType ++ " ", named.name,
      " => new " ++ resultType ++ "(succeeded: false, errorCode: " ++ code ++ message ++ ");"⟩
  | some carried =>
    let result := resultType ++ "<" ++ carried ++ ">"
    ⟨"public " ++ result ++ " ", named.name,
      genericList shape.generics ++ "(" ++ carried ++ " response = default) => new " ++ result ++
        "(succeeded: false, errorCode: " ++ code ++ ", response: response" ++ message ++ ");"⟩

def accessorsOutline (resultType : String) (shape : ReturnShape) (entries : List NamedEntry)
    (withMessage : Bool) : ClassOutline :=
  .nested (accessorsHead method)
    (.members (entries.map (accessorMember resultType shape withMessage)))

/-- The outline for a build variant, given those with and without messages. -/
def variantOutline (variant : Variant) (debugSymbol : String) (outline : Bool → ClassOutline) :
    ClassOutline :=
  match variant with
  | .debug => outline true
  | .release => outline false
  | .both => .choice debugSymbol (outline true) (outline false)

theorem lines_singleton (text : String) : lines [text] = text := rfl

/-- Members between braces may be put together first. -/
theorem block_lines (head : String) (members : List String) :
    block head [lines members] = block head members := by
  rw [block, block, lines_singleton]

theorem text_codeMember (named : NamedEntry) : (codeMember named).text = codeConstant named := by
  unfold codeMember codeConstant
  simp only [PlainMember.text_mk, String.append_assoc]

theorem text_accessorMember (resultType : String) (shape : ReturnShape) (withMessage : Bool)
    (named : NamedEntry) :
    (accessorMember resultType shape withMessage named).text =
      accessor resultType shape withMessage named := by
  unfold accessorMember accessor
  cases shape.payload.type? <;> simp only [PlainMember.text_mk, String.append_assoc]

theorem text_variantOutline (variant : Variant) (debugSymbol : String)
    (outline : Bool → ClassOutline) :
    (variantOutline variant debugSymbol outline).text =
      inVariant variant debugSymbol fun withMessage => (outline withMessage).text := by
  cases variant <;> rfl

theorem resultsFactory_eq :
    resultsFactory frame typeName = inFrame frame (factoryOutline typeName).text := by
  simp only [resultsFactory, factoryOutline, ClassOutline.text_nested, ClassOutline.text_members,
    text_factoryHead, List.map_cons, List.map_nil, lines_singleton, PlainMember.text_mk,
    String.append_assoc]

theorem errorsProvider_eq :
    errorsProvider frame typeName method =
      inFrame frame (propertyOutline typeName method).text := by
  simp only [errorsProvider, propertyOutline, ClassOutline.text_nested, ClassOutline.text_members,
    text_providerHead, List.map_cons, List.map_nil, lines_singleton, PlainMember.text_mk,
    String.append_assoc]

theorem errorRepository_eq :
    errorRepository frame typeName = inFrame frame (repositoryOutline typeName).text := by
  rw [errorRepository, repositoryOutline, ClassOutline.text_nested, ClassOutline.text_shell,
    text_repositoryHead, text_errorsHead]

theorem classErrorsProvider_eq :
    classErrorsProvider frame typeName =
      inFrame frame (ClassOutline.shell (errorsHead typeName)).text := by
  rw [classErrorsProvider, ClassOutline.text_shell, text_errorsHead]

theorem errorCodes_eq (entries : List NamedEntry) :
    errorCodes frame typeName method entries =
      inFrame frame (codesOutline typeName method entries).text := by
  simp only [errorCodes, codesOutline, ClassOutline.text_nested, ClassOutline.text_members,
    text_repositoryHead, text_errorsHead, text_codesHead, block_lines, List.map_map,
    Function.comp_def, text_codeMember]

theorem methodErrors_eq (resultType : String) (shape : ReturnShape) (entries : List NamedEntry)
    (variant : Variant) (debugSymbol : String) :
    methodErrors frame typeName method resultType shape entries variant debugSymbol =
      inFrame frame (ClassOutline.nested (providerHead typeName) (variantOutline variant debugSymbol
        (accessorsOutline method resultType shape entries))).text := by
  have classes : accessorClass method resultType shape entries =
      fun withMessage => (accessorsOutline method resultType shape entries withMessage).text := by
    funext withMessage
    simp only [accessorClass, accessorsOutline, ClassOutline.text_nested,
      ClassOutline.text_members, text_accessorsHead, block_lines, List.map_map, Function.comp_def,
      text_accessorMember]
  rw [methodErrors, ClassOutline.text_nested, text_providerHead, text_variantOutline, classes]

end Outlines

end Template

/-- A generated source as declarations in a frame. -/
structure OutlinedSource where
  key : ArtifactKey
  frame : Frame
  outline : ClassOutline
deriving DecidableEq, Repr

namespace OutlinedSource

/-- The source file with these declarations. -/
def artifact (emission : Emission) (source : OutlinedSource) : Artifact :=
  .ofTemplate emission source.key (Template.inFrame source.frame source.outline.text)

/-- What the source declares where the debug symbol is defined, or where it is
not. -/
def declared (defined : Bool) (source : OutlinedSource) : List DeclaredMember :=
  source.outline.declared defined source.frame.space []

/-- The source of a shared artifact. -/
def shared (emission : Emission) (key : ArtifactKey) : OutlinedSource :=
  match key with
  | .ofType .resultsFactory space typeName =>
    ⟨key, ⟨space, emission.runtimeNamespace, []⟩, Template.factoryOutline typeName⟩
  | .ofType .errorRepository space typeName =>
    ⟨key, ⟨space, emission.runtimeNamespace, []⟩, Template.repositoryOutline typeName⟩
  | .ofType .classErrorsProvider space typeName =>
    ⟨key, ⟨space, emission.runtimeNamespace, []⟩, .shell (Template.errorsHead typeName)⟩
  | .ofMethod _ space typeName method =>
    ⟨key, ⟨space, emission.runtimeNamespace, []⟩, Template.propertyOutline typeName method⟩

@[simp]
theorem key_shared (emission : Emission) (key : ArtifactKey) : (shared emission key).key = key := by
  cases key with
  | ofType kind space typeName => cases kind <;> rfl
  | ofMethod kind space typeName method => rfl

theorem artifact_shared (emission : Emission) (key : ArtifactKey) :
    (shared emission key).artifact emission = Artifact.shared emission key := by
  cases key with
  | ofType kind space typeName =>
      cases kind with
      | resultsFactory =>
          exact congrArg (Artifact.ofTemplate emission _) (Template.resultsFactory_eq _ _).symm
      | errorRepository =>
          exact congrArg (Artifact.ofTemplate emission _) (Template.errorRepository_eq _ _).symm
      | classErrorsProvider =>
          exact congrArg (Artifact.ofTemplate emission _)
            (Template.classErrorsProvider_eq _ _).symm
  | ofMethod kind space typeName method =>
      exact congrArg (Artifact.ofTemplate emission _) (Template.errorsProvider_eq _ _ _).symm

/-- The sources of a method alone, given the names of its entries. -/
def ownOf (model : SiteModel) (settings : Settings) (entries : List NamedEntry) :
    List OutlinedSource :=
  let emission := settings.emission
  let frame := model.frame emission
  let typeName := model.site.typeName
  let method := model.site.method
  [⟨.ofMethod .methodErrors model.site.space typeName method,
      { frame with imports := model.repeatedImports emission },
      .nested (Template.providerHead typeName)
        (Template.variantOutline emission.variant emission.debugSymbol
          (Template.accessorsOutline method settings.grammar.resultType model.shape entries))⟩,
    ⟨.ofMethod .methodErrorCodes model.site.space typeName method, frame,
      Template.codesOutline typeName method entries⟩]

theorem map_artifact_ownOf (model : SiteModel) (settings : Settings) (entries : List NamedEntry) :
    (ownOf model settings entries).map (artifact settings.emission) =
      model.ownArtifacts settings entries := by
  simp only [ownOf, List.map_cons, List.map_nil, artifact, SiteModel.ownArtifacts,
    Template.methodErrors_eq, Template.errorCodes_eq]

/-- The sources of a model alone; none if it is rejected. -/
def own (settings : Settings) (model : SiteModel) : List OutlinedSource :=
  match (model.named settings.emission).outcome with
  | .ok entries => ownOf model settings entries
  | .error _ => []

theorem map_artifact_own (settings : Settings) (model : SiteModel) :
    (own settings model).map (artifact settings.emission) = model.own settings := by
  unfold own SiteModel.own
  cases (model.named settings.emission).outcome with
  | ok entries => exact map_artifact_ownOf model settings entries
  | error error => rfl

/-- The sources that a run over some models has to make. -/
def requested (settings : Settings) (models : List SiteModel) : List OutlinedSource :=
  ((acceptedModels settings models).flatMap SiteModel.sharedKeys).dedup.map
      (shared settings.emission) ++
    (acceptedModels settings models).flatMap (own settings)

/-- The texts of these sources are the artifacts that the models ask for. -/
theorem map_artifact_requested (settings : Settings) (models : List SiteModel) :
    (requested settings models).map (artifact settings.emission) =
      requestedArtifacts settings models := by
  rw [requested, requestedArtifacts, List.map_append, List.map_map, List.map_flatMap]
  congr 1
  · exact List.map_congr_left fun key _ => artifact_shared settings.emission key
  · exact List.flatMap_congr fun model _ => map_artifact_own settings model

end OutlinedSource

/-- The sources of a run as declarations, the shared ones first. -/
def Generation.outlined (units : List SourceUnit) (settings : Settings) : List OutlinedSource :=
  OutlinedSource.requested settings
    (siteModels (.ofUnits units) settings (MarkedSite.ofUnits settings.marker units))

/-- A run makes the texts of its declarations, up to their order. -/
theorem Generation.artifacts_run_perm_outlined (units : List SourceUnit) (settings : Settings) :
    (run (.ofUnits units) settings).artifacts.Perm
      ((outlined units settings).map (OutlinedSource.artifact settings.emission)) := by
  rw [outlined, OutlinedSource.map_artifact_requested]
  exact artifacts_run_perm units settings

end ErrorAccessors
