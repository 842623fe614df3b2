/-
# The outline of generated accessors

The text with the accessors of a method is read as one outline, whatever the names, the
messages and the directives are.  For each time that the accessors are emitted there is a
class of errors inside the class that provides the results of the type.  It has one method
for each entry, which returns a result with what is carried and has the type parameters of
the method.  In front stands the directive for the runtime, and then, inside the namespace
if there is one, the directives that are repeated.

What is carried has to be read as a type, and then it is the canonical spelling of that
type.  The names have to be words.
-/

import ErrorAccessors.Proofs.FrameText
import ErrorAccessors.Proofs.OutlinedTokens

namespace ErrorAccessors

open ErrorAccessors.Parser

namespace Template

section Accessors

variable {carried : String} {type : TypeExpr} {shape : ReturnShape} {entries : List NamedEntry}

/-- The result type with a type argument. -/
def resultOf (type : TypeExpr) : TypeExpr :=
  .named none [⟨"Result", [type]⟩] .nowhere

/-- The outline of the accessor for an entry. -/
def accessorOutline (type : TypeExpr) (generics : List String) (named : NamedEntry) : TypeMember :=
  .method (methodOutline (resultOf type.unplaced) named.name generics)

/-- A name of an accessor that is a word is no word with a meaning of its own. -/
private theorem plain_of_isAccessorText {name : String} (isText : IsAccessorText name.toList) :
    name ≠ "operator" ∧ name ≠ "this" := by
  obtain ⟨c, more, isName, noLower⟩ := isText.begins
  constructor <;>
  · rintro rfl
    cases isName
    exact absurd noLower (by decide)

/-- An accessor for an entry is neatly written as its outline. -/
theorem exists_outlines_accessor (carries : shape.payload.type? = some carried)
    (spelled : IsSpelledShape shape) (isType : TypeExpr.parse carried = .ok type)
    {named : NamedEntry}
    (isText : IsAccessorText named.name.toList) (isWord : Lexeme.IsWord named.name.toList)
    (withMessage : Bool) :
    ∃ kinds, OutlinesMember (accessorOutline type shape.generics named) kinds ∧
      WritesNeatly (accessor "Result" shape withMessage named).toList kinds := by
  have isResult : Lexeme.IsWord "Result".toList := by decide
  have isCarried := spelled.payload carried carries
  obtain ⟨-, inside, bracketedInside, writtenInside, spells⟩ := isCarried.spelled isType
  obtain ⟨d, behind, list, body, separator, bracketedList, bracketedBody, isRest, writtenRest⟩ :=
    exists_writesNeatly_methodRest isResult isCarried.isCode spelled.generics
      (isValue_resultArguments named.entry withMessage)
  have spellsResult : Spells (.ident "Result" :: .mark .less :: (inside ++ [.mark .greater]))
      (.type (resultOf type.unplaced)) :=
    .named (by decide) (.lastPart (.genericPart "Result" (.lastArgument spells)))
  refine ⟨_, outlinesMember_method shape.generics spellsResult (by decide)
    (plain_of_isAccessorText isText) (bracketedInside.enclosed (by decide)) bracketedList
    bracketedBody, ?_⟩
  have named := (WritesNeatly.word isWord).append writtenRest fun e isHead => by
    obtain rfl := Option.some.inj isHead
    exact Lexeme.continuesWord_of_separates separator
  rw [← isRest] at named
  rw [accessor_of_carried carries]
  simpa [methodKinds] using writesNeatly_publicResult isResult writtenInside named

/-- The accessors for some entries are laid out one behind the other. -/
private theorem exists_outlines_accessors (carries : shape.payload.type? = some carried)
    (spelled : IsSpelledShape shape) (isType : TypeExpr.parse carried = .ok type)
    (areTexts : ∀ named ∈ entries,
      IsAccessorText named.name.toList ∧ Lexeme.IsWord named.name.toList)
    (withMessage : Bool) :
    ∃ parts, List.Forall₂ OutlinesMember (entries.map (accessorOutline type shape.generics)) parts ∧
      List.Forall₂ LaysOut (entries.map (accessor "Result" shape withMessage)) parts := by
  induction entries with
  | nil => exact ⟨[], .nil, .nil⟩
  | cons named entries ih =>
      obtain ⟨⟨isText, isWord⟩, later⟩ := List.forall_mem_cons.mp areTexts
      obtain ⟨kinds, outlines, written⟩ :=
        exists_outlines_accessor carries spelled isType isText isWord withMessage
      obtain ⟨parts, areOutlined, layOut⟩ := ih later
      exact ⟨kinds :: parts, .cons outlines areOutlined, .cons (.code written) layOut⟩

/-- The outline of the class with the accessors of a method. -/
def errorsOutline (method : String) (type : TypeExpr) (generics : List String)
    (entries : List NamedEntry) : TypeMember :=
  .type (classOutline ["public"] (method ++ "Errors") (entries.map (accessorOutline type generics)))

/-- The class with the accessors of a method is laid out as its outline. -/
private theorem exists_outlines_accessorClass {method : String}
    (isMethod : Lexeme.IsWord method.toList)
    (carries : shape.payload.type? = some carried) (spelled : IsSpelledShape shape)
    (isType : TypeExpr.parse carried = .ok type)
    (areTexts : ∀ named ∈ entries,
      IsAccessorText named.name.toList ∧ Lexeme.IsWord named.name.toList)
    (withMessage : Bool) :
    ∃ kinds, OutlinesMember (errorsOutline method type shape.generics entries) kinds ∧
      LaysOut (accessorClass method "Result" shape entries withMessage) kinds := by
  obtain ⟨parts, areOutlined, layOut⟩ :=
    exists_outlines_accessors carries spelled isType areTexts withMessage
  have isHead := isClassHead_accessors isMethod
  exact ⟨_, outlinesMember_class isHead.modify areOutlined, isHead.laysOut (laysOut_lines layOut)⟩

end Accessors

section Frames

variable {frame : Frame} {type : TypeExpr}

/-- The outline of a file with one declaration in its frame. -/
def frameOutline (path space runtimeNamespace : String) (imports : List UsingKind)
    (decl : TypeDecl) :
    SourceUnit :=
  let runtime : UsingDirective := ⟨.nowhere, false, .ofNamespace runtimeNamespace⟩
  let others : List UsingDirective := imports.map (⟨.nowhere, false, ·⟩)
  if space = "" then ⟨path, .nowhere, runtime :: others, [.type decl]⟩
  else ⟨path, .nowhere, [runtime], [.space ⟨.nowhere, space, false, others, [.type decl]⟩]⟩

/-- Directives in front of a declaration. -/
private theorem bodyOutline_directives (directives : List UsingDirective) (decl : TypeDecl) :
    bodyOutline (directives.map .directive ++ [.member (.type decl)]) =
      ⟨directives, [.type decl]⟩ := by
  have added (body : NamespaceBody) :
      (directives.map NamespaceItem.directive).foldl NamespaceBody.add body =
      ⟨body.usings ++ directives, body.members⟩ := by
    induction directives generalizing body with
    | nil => simp
    | cons directive directives ih => simp [ih, NamespaceBody.add]
  rw [bodyOutline, List.foldl_append, added]
  rfl

/-- A declaration in a proper frame is read with its directives and its namespace. -/
theorem parse_inFrame {decl : TypeDecl} {body : String} (proper : IsProperFrame frame)
    (runtime : (UsingKind.ofNamespace frame.runtimeNamespace).IsProper false)
    {kinds : List TokenKind}
    (outlines : OutlinesItem (.member (.type decl)) kinds) (laysOut : LaysOut body kinds) :
    ∃ imports : List UsingKind, frame.imports = imports.map UsingKind.text ∧ ∀ path, ∃ unit,
      SourceUnit.parse (Layout.normalize (inFrame frame body)) path = .ok unit ∧
        unit.unplaced = frameOutline path frame.space frame.runtimeNamespace imports decl := by
  obtain ⟨target, isRuntime⟩ := exists_repeatsDirective runtime
  have laysOutAll : LaysOut body [kinds].flatten := by simpa using laysOut
  obtain ⟨text, imports, targets, items, isText, areTexts, repeated, areItems, whole⟩ :=
    exists_laysOut_inFrame proper isRuntime.written laysOutAll
  refine ⟨imports, areTexts, fun path => ?_⟩
  have directive {kind : UsingKind} {target : List TokenKind}
      (isRepeated : RepeatsDirective kind target) :
      OutlinesItem (.directive ⟨.nowhere, false, kind⟩) (usingKinds target) :=
    outlinesItem_using isRepeated.isTarget isRepeated.noVar
  have inside : List.Forall₂ OutlinesItem
      ((imports.map (UsingDirective.mk .nowhere false)).map NamespaceItem.directive ++
        [.member (.type decl)]) (targets.map usingKinds ++ [kinds]) := by
    refine List.rel_append ?_ (.cons outlines .nil)
    rw [List.map_map, List.forall₂_map_left_iff, List.forall₂_map_right_iff]
    exact repeated.imp fun _ _ => directive
  rw [isText]
  cases areItems with
  | outside noSpace =>
      obtain ⟨unit, parsed, isOutline⟩ :=
        SourceUnit.parse_of_outlines whole.writes_normalize
          (.cons (directive isRuntime) inside) path
      refine ⟨unit, parsed, ?_⟩
      rw [isOutline, frameOutline, if_pos noSpace, ← List.cons_append, ← List.map_cons,
        bodyOutline_directives]
  | inside nonempty isName =>
      obtain ⟨unit, parsed, isOutline⟩ :=
        SourceUnit.parse_of_outlines whole.writes_normalize
          (.cons (directive isRuntime) (.cons (outlinesItem_namespace inside) .nil)) path
      refine ⟨unit, parsed, ?_⟩
      rw [isOutline, frameOutline, if_neg nonempty, bodyOutline_directives, isName.isName]
      rfl

end Frames

section Errors

variable {frame : Frame} {typeName method carried debugSymbol : String} {type : TypeExpr}
  {shape : ReturnShape} {entries : List NamedEntry}

/-- The outline of the class that provides the results of a type, with one class of accessors
for each time that they are emitted. -/
def providerOutline (typeName method : String) (type : TypeExpr) (generics : List String)
    (entries : List NamedEntry) (variant : Variant) : TypeDecl :=
  classOutline ["public", "partial"] (typeName ++ "ResultsProvider")
    (variant.messages.map fun _ => errorsOutline method type generics entries)

variable (isTypeName : Lexeme.IsWord typeName.toList) (isMethod : Lexeme.IsWord method.toList)
  (isSymbol : Lexeme.IsWord debugSymbol.toList) (carries : shape.payload.type? = some carried)
  (spelled : IsSpelledShape shape) (isType : TypeExpr.parse carried = .ok type)
  (areTexts : ∀ named ∈ entries, IsAccessorText named.name.toList ∧ Lexeme.IsWord named.name.toList)
  (variant : Variant)
include isTypeName isMethod isSymbol carries spelled isType areTexts

/-- The class that provides the results of a type is laid out as its outline. -/
theorem exists_outlines_provider :
    ∃ kinds, OutlinesItem (.member (.type
        (providerOutline typeName method type shape.generics entries variant))) kinds ∧
      LaysOut (block (providerClass typeName)
        [inVariant variant debugSymbol (accessorClass method "Result" shape entries)]) kinds := by
  choose kinds outlines layOut using
    exists_outlines_accessorClass isMethod carries spelled isType areTexts
  have isHead := isClassHead_provider isTypeName
  have classes : List.Forall₂ OutlinesMember
      (variant.messages.map fun _ => errorsOutline method type shape.generics entries)
      (variant.messages.map kinds) := by
    rw [List.forall₂_map_left_iff, List.forall₂_map_right_iff, List.forall₂_same]
    exact fun withMessage _ => outlines withMessage
  have inside : LaysOut (lines [inVariant variant debugSymbol
      (accessorClass method "Result" shape entries)]) (variant.messages.map kinds).flatten := by
    have layOutEach (withMessage : Bool) :
        LaysOut (accessorClass method "Result" shape entries withMessage)
          [kinds withMessage].flatten := by
      simpa using layOut withMessage
    have all := laysOut_inVariant isSymbol layOutEach variant
    rwa [← List.map_eq_flatMap] at all
  exact ⟨_, outlinesItem_class isHead.modify classes, isHead.laysOut inside⟩

/-- The accessors of a method are read in their frame. -/
theorem parse_methodErrors (proper : IsProperFrame frame)
    (runtime : (UsingKind.ofNamespace frame.runtimeNamespace).IsProper false) :
    ∃ imports : List UsingKind, frame.imports = imports.map UsingKind.text ∧ ∀ path, ∃ unit,
      SourceUnit.parse (Layout.normalize
          (methodErrors frame typeName method "Result" shape entries variant debugSymbol)) path =
        .ok unit ∧
      unit.unplaced = frameOutline path frame.space frame.runtimeNamespace imports
        (providerOutline typeName method type shape.generics entries variant) := by
  obtain ⟨kinds, outlines, laysOut⟩ := exists_outlines_provider isTypeName isMethod isSymbol carries
    spelled isType areTexts variant
  exact parse_inFrame proper runtime outlines laysOut

end Errors

end Template

end ErrorAccessors
