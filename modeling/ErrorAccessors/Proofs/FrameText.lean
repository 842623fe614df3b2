/-
# Generated files are read without a diagnostic

A frame places a declaration into its namespace behind the directives that it needs.  The
directives that are repeated in it were read from files and are read again from their
spelling, unless one defines an alias of the name `var`, which would be a statement where
it is not global.  With the declarations of a template in it, a frame is a file that is
read without a diagnostic when it has been laid out, and the layout changes none of its
tokens.

Comments are no tokens, so the source that lists the faults of a run is a file without
any declaration.
-/

import ErrorAccessors.Proofs.TemplateText

namespace ErrorAccessors

open ErrorAccessors.Parser

/-- A text that is read as a file without a diagnostic, and no attributes stand in front of
the methods in it. -/
def ReadsBare (text : String) : Prop :=
  ∀ path, ∃ unit, SourceUnit.parse text path = .ok unit ∧
    ∀ method ∈ unit.methods, method.attributeLists = []

/-- A dotted name writes its parts. -/
theorem IsDottedName.writesNeatly {name first : String} {others : List String}
    (isName : IsDottedName name first others) :
    WritesNeatly name.toList (.ident first :: dotKinds others) := by
  obtain ⟨rfl, words⟩ := isName
  induction others generalizing first with
  | nil =>
      rw [String.intercalate_singleton]
      exact .word (words first List.mem_cons_self)
  | cons second others ih =>
      obtain ⟨isWord, areWords⟩ := List.forall_mem_cons.mp words
      rw [String.intercalate_cons_cons]
      have behind := (WritesNeatly.word isWord).append_mark (c := '.') rfl (by decide) (ih areWords)
      simpa [dotKinds] using behind

/-- Whether the accessors of a variant carry messages, for each time that they are emitted. -/
def Variant.messages : Variant → List Bool
  | both => [true, false]
  | debug => [true]
  | release => [false]

namespace Template

section Directives

variable {kind : UsingKind} {isGlobal : Bool}

/-- What a directive brings into scope is written as it is read. -/
theorem exists_targetKinds (proper : kind.IsProper isGlobal) :
    ∃ target, TargetKinds kind target ∧ WritesNeatly kind.text.toList (usingKinds target) ∧
      (isGlobal = false → target.head? ≠ some (.ident "var")) := by
  have isUsing : Lexeme.IsWord "using".toList := isWord_of_mem (by decide)
  have ended {text : List Char} {target : List TokenKind} (written : WritesNeatly text target) :
      WritesNeatly ("using".toList ++ ' ' :: (text ++ [';'])) (usingKinds target) :=
    (WritesNeatly.word isUsing).spaced (written.concat_mark (c := ';') rfl (by decide))
  have noVar {word : String} {more : List TokenKind} (other : word ≠ "var") :
      (TokenKind.ident word :: more).head? ≠ some (.ident "var") :=
    fun same => other (TokenKind.ident.inj (Option.some.inj same))
  cases proper with
  | @ofNamespace name first others isName begins =>
      have written := isName.writesNeatly
      obtain ⟨rfl, -⟩ := isName
      refine ⟨_, .space others begins.1, ?_, fun isLocal => noVar (begins.2 isLocal)⟩
      simpa [UsingKind.text] using ended written
  | @ofStatic type isType =>
      obtain ⟨kinds, written, spells, rfl, writesType⟩ := isType
      have isStatic : Lexeme.IsWord "static".toList := isWord_of_mem (by decide)
      refine ⟨_, .ofStatic spells, ?_, fun _ => noVar (by decide)⟩
      simpa [UsingKind.text] using ended ((WritesNeatly.word isStatic).spaced writesType)
  | @ofAlias name target isWord begins isType =>
      obtain ⟨kinds, written, spells, rfl, writesType⟩ := isType
      refine ⟨_, .ofAlias begins.1 spells, ?_, fun isLocal => noVar (begins.2 isLocal)⟩
      simpa [UsingKind.text] using ended
        ((WritesNeatly.word isWord).spaced writesType.behind_equals)

end Directives

section Frames

/-- A frame whose namespaces are dotted names and whose imports are spelled by directives
that can be read where they stand. -/
structure IsProperFrame (frame : Frame) : Prop where
  space : frame.space ≠ "" → ∃ first others, IsDottedName frame.space first others
  runtime : (UsingKind.ofNamespace frame.runtimeNamespace).IsProper true
  imports : ∀ text ∈ frame.imports, ∃ kind : UsingKind, kind.IsProper false ∧ text = kind.text

variable {frame : Frame} {body : String}

/-- The head of a namespace. -/
theorem writesNeatly_namespace {first : String} {others : List String} {space : String}
    (isName : IsDottedName space first others) :
    WritesNeatly ("namespace " ++ space).toList
      (.ident "namespace" :: .ident first :: dotKinds others) := by
  have isNamespace : Lexeme.IsWord "namespace".toList := isWord_of_mem (by decide)
  simpa using (WritesNeatly.word isNamespace).spaced isName.writesNeatly

private theorem laysOut_namespace {first : String} {others : List String} {space : String}
    (isName : IsDottedName space first others) {texts : List String} {items : List (List TokenKind)}
    (inside : LaysOut (lines texts) items.flatten) :
    LaysOut (block ("namespace " ++ space) texts) (namespaceKinds first others items) := by
  simpa [namespaceKinds] using laysOut_block (writesNeatly_namespace isName) inside

/-- The tokens of what a directive brings into scope that is repeated in a frame. -/
structure RepeatsDirective (kind : UsingKind) (target : List TokenKind) : Prop where
  isTarget : TargetKinds kind target
  noVar : target.head? ≠ some (.ident "var")
  written : WritesNeatly kind.text.toList (usingKinds target)

private theorem RepeatsDirective.bare {kind : UsingKind} {target : List TokenKind}
    (repeated : RepeatsDirective kind target) : BareItem (usingKinds target) := by
  obtain ⟨isTarget, noVar, -⟩ := repeated
  refine bareItem_using isTarget ?_
  rintro type rfl
  cases isTarget with
  | ofAlias noStatic spells => exact noVar rfl

/-- The tokens of the items that stand in the namespace of a frame, or in the file if there is
no namespace. -/
inductive FrameItems (space : String) (items : List (List TokenKind)) : List (List TokenKind) → Prop
  | outside (noSpace : space = "") : FrameItems space items items
  | inside {first : String} {others : List String} (nonempty : space ≠ "")
      (isName : IsDottedName space first others) :
      FrameItems space items [namespaceKinds first others items]

/-- What a directive that is not global brings into scope can be repeated. -/
theorem exists_repeatsDirective {kind : UsingKind} (proper : kind.IsProper false) :
    ∃ target, RepeatsDirective kind target := by
  obtain ⟨target, isTarget, written, noVar⟩ := exists_targetKinds proper
  exact ⟨target, isTarget, noVar rfl, written⟩

private theorem exists_repeated {texts : List String}
    (proper : ∀ text ∈ texts, ∃ kind : UsingKind, kind.IsProper false ∧ text = kind.text) :
    ∃ kinds targets, texts = kinds.map UsingKind.text ∧
    List.Forall₂ RepeatsDirective kinds targets := by
  induction texts with
  | nil => exact ⟨[], [], rfl, .nil⟩
  | cons text texts ih =>
      obtain ⟨⟨kind, isProper, rfl⟩, later⟩ := List.forall_mem_cons.mp proper
      obtain ⟨kinds, targets, rfl, repeated⟩ := ih later
      obtain ⟨target, isRepeated⟩ := exists_repeatsDirective isProper
      exact ⟨kind :: kinds, target :: targets, rfl, .cons isRepeated repeated⟩

private theorem laysOut_repeated {kinds : List UsingKind} {targets : List (List TokenKind)}
    (repeated : List.Forall₂ RepeatsDirective kinds targets) :
    LaysOut (lines (kinds.map UsingKind.text)) (targets.map usingKinds).flatten := by
  refine laysOut_lines (List.forall₂_map_left_iff.mpr (List.forall₂_map_right_iff.mpr ?_))
  exact repeated.imp fun _ _ isRepeated => .code isRepeated.written

/-- A frame is laid out as directives and its namespace, or what would be in it. -/
theorem exists_laysOut_inFrame (proper : IsProperFrame frame) {runtime : List TokenKind}
    (written : WritesNeatly (UsingKind.ofNamespace frame.runtimeNamespace).text.toList
      (usingKinds runtime))
    {parts : List (List TokenKind)} (laysOut : LaysOut body parts.flatten) :
    ∃ text kinds targets items, inFrame frame body = text ++ "\n" ∧
      frame.imports = kinds.map UsingKind.text ∧ List.Forall₂ RepeatsDirective kinds targets ∧
      FrameItems frame.space (targets.map usingKinds ++ parts) items ∧
      LaysOut text (usingKinds runtime :: items).flatten := by
  obtain ⟨kinds, targets, areTexts, repeated⟩ := exists_repeated proper.imports
  have imports : LaysOut (lines frame.imports) (targets.map usingKinds).flatten :=
    areTexts ▸ laysOut_repeated repeated
  have newline : ";\n" = ";" ++ "\n" := rfl
  by_cases noSpace : frame.space = ""
  · have both := (LaysOut.code written).append (imports.append laysOut)
    rw [← List.flatten_append, ← List.flatten_cons] at both
    refine ⟨_, kinds, targets, _, ?_, areTexts, repeated, .outside noSpace, both⟩
    simp only [inFrame, if_pos noSpace, UsingKind.text, newline, String.append_assoc]
  · obtain ⟨first, others, isName⟩ := proper.space noSpace
    have inside :
        LaysOut (lines [lines frame.imports, body]) (targets.map usingKinds ++ parts).flatten := by
      have all := laysOut_lines (.cons imports (.cons laysOut .nil))
      simpa using all
    have both := (LaysOut.code written).append (laysOut_namespace isName inside)
    rw [← List.flatten_singleton (l := namespaceKinds _ _ _), ← List.flatten_cons] at both
    refine ⟨_, kinds, targets, _, ?_, areTexts, repeated, .inside noSpace isName, both⟩
    simp only [inFrame, if_neg noSpace, UsingKind.text, newline, String.append_assoc]

/-- A text that consists of bare items, one behind the other, and a line end. -/
def IsBareFile (text : String) : Prop :=
  ∃ inside, text = inside ++ "\n" ∧ Holds BareItem inside

namespace IsBareFile

variable {text : String}

/-- When it has been laid out, it is read without a diagnostic. -/
theorem readsBare (isBare : IsBareFile text) : ReadsBare (Layout.normalize text) := by
  obtain ⟨inside, rfl, items, areItems, laysOut⟩ := isBare
  exact SourceUnit.parse_of_bareItems laysOut.writes_normalize areItems

/-- The layout changes none of its tokens. -/
theorem map_kind_tokens_normalize (isBare : IsBareFile text) (path : String) :
    (Token.tokens (.ofText path (Layout.normalize text))).map (·.kind) =
      (Token.tokens (.ofText path text)).map (·.kind) := by
  obtain ⟨inside, rfl, items, -, laysOut⟩ := isBare
  exact laysOut.map_kind_tokens_normalize path

end IsBareFile

/-- A frame with bare items in it is a bare file. -/
theorem isBareFile_inFrame (proper : IsProperFrame frame) (holds : Holds BareItem body) :
    IsBareFile (inFrame frame body) := by
  obtain ⟨parts, areBare, laysOut⟩ := holds
  obtain ⟨runtime, isRuntime, written, -⟩ := exists_targetKinds proper.runtime
  obtain ⟨text, kinds, targets, items, isText, -, repeated, areItems, whole⟩ :=
    exists_laysOut_inFrame proper written laysOut
  refine ⟨text, isText, _, List.forall_mem_cons.mpr ⟨bareItem_using isRuntime nofun, ?_⟩, whole⟩
  have all : ∀ kinds ∈ targets.map usingKinds ++ parts, BareItem kinds := by
    refine List.forall_mem_append.mpr ⟨List.forall_mem_map.mpr ?_, areBare⟩
    exact forall_mem_of_forall₂ repeated fun _ _ => RepeatsDirective.bare
  cases areItems with
  | outside noSpace => exact all
  | inside nonempty isName => exact List.forall_mem_singleton.mpr (bareItem_namespace all)

end Frames

section Declarations

variable {typeName method : String}

private theorem isClassHead_factory :
    IsClassHead "public static partial class ResultsFactory" ["public", "static", "partial"]
      "ResultsFactory" :=
  ⟨by decide, isWord_of_mem (by decide), "public static partial class ", rfl, by simp⟩

theorem isClassHead_provider (isWord : Lexeme.IsWord typeName.toList) :
    IsClassHead (providerClass typeName) ["public", "partial"] (typeName ++ "ResultsProvider") :=
  ⟨by decide, isWord_append isWord (isWord_of_mem (by decide)), "public partial class ",
    String.append_assoc, by simp⟩

private theorem isClassHead_repository :
    IsClassHead repositoryClass ["public", "static", "partial"] "ErrorCodeRepository" :=
  ⟨by decide, isWord_of_mem (by decide), "public static partial class ", rfl, by simp⟩

private theorem isClassHead_errors (isWord : Lexeme.IsWord typeName.toList) :
    IsClassHead (errorsClass typeName) ["public", "static", "partial"] (typeName ++ "Errors") :=
  ⟨by decide, isWord_append isWord (isWord_of_mem (by decide)), "public static partial class ",
    String.append_assoc, by simp⟩

theorem isClassHead_accessors (isWord : Lexeme.IsWord method.toList) :
    IsClassHead ("public class " ++ method ++ "Errors") ["public"] (method ++ "Errors") :=
  ⟨by decide, isWord_append isWord (isWord_of_mem (by decide)), "public class ",
    String.append_assoc, by simp⟩

/-- The entry point of a type in the factory of results. -/
theorem isBareFile_resultsFactory (proper : IsProperFrame frame)
    (isType : Lexeme.IsWord typeName.toList) : IsBareFile (resultsFactory frame typeName) := by
  refine isBareFile_inFrame proper (isClassHead_factory.holdsItem (.lines ?_))
  refine List.forall_mem_singleton.mpr ?_
  have isBare := holds_property ["public", "static"] "public static " "ResultsProvider" (by simp)
    (by decide) isType (by decide) (by simp)
  refine (congrArg (Holds BareMember) ?_).mp isBare
  simp [← String.toList_inj]

/-- The property of a provider that leads to the accessors of a method. -/
theorem isBareFile_errorsProvider (proper : IsProperFrame frame)
    (isType : Lexeme.IsWord typeName.toList) (isMethod : Lexeme.IsWord method.toList) :
    IsBareFile (errorsProvider frame typeName method) := by
  refine isBareFile_inFrame proper ((isClassHead_provider isType).holdsItem (.lines ?_))
  refine List.forall_mem_singleton.mpr ?_
  have isBare := holds_property ["public"] "public " "Errors" (by simp) (by decide) isMethod
    (by decide) (by simp)
  refine (congrArg (Holds BareMember) ?_).mp isBare
  simp [← String.toList_inj]

/-- The shells of the classes with the errors of a type. -/
theorem isBareFile_shells (proper : IsProperFrame frame) (isType : Lexeme.IsWord typeName.toList) :
    IsBareFile (errorRepository frame typeName) ∧
    IsBareFile (classErrorsProvider frame typeName) := by
  have isHead := isClassHead_errors isType
  refine ⟨isBareFile_inFrame proper (isClassHead_repository.holdsItem (.lines ?_)),
    isBareFile_inFrame proper (isHead.holdsEmpty fun _ => bareItem_class isHead.modify)⟩
  exact List.forall_mem_singleton.mpr (isHead.holdsEmpty fun _ => bareMember_class isHead.modify)

/-- The constant for a code is bare. -/
private theorem holds_codeConstant {named : NamedEntry}
    (isText : IsAccessorText named.name.toList) :
    Holds BareMember (codeConstant named) := by
  have isType : Lexeme.IsWord (codeType named.entry.code).toList ∧
      codeType named.entry.code ∉ plainTypeWords := by
    have either : codeType named.entry.code = "int" ∨ codeType named.entry.code = "long" :=
      ite_eq_or_eq _ _ _
    rcases either with isInt | isLong
    · rw [isInt]
      exact ⟨isWord_of_mem (by decide), by decide⟩
    · rw [isLong]
      exact ⟨isWord_of_mem (by decide), by decide⟩
  obtain ⟨nameKinds, declared⟩ := @exists_isDeclaredName (codeType named.entry.code) _ isText
  have isBare := holds_value ["public", "const"] "public const " (by simp)
    (by decide) isType.1 isType.2 declared .equals (.code named.entry.code) (by simp)
  unfold codeConstant
  refine (congrArg (Holds BareMember) ?_).mp isBare
  simp [← String.toList_inj]

/-- The constants for the codes of a method. -/
theorem isBareFile_errorCodes (proper : IsProperFrame frame)
    (isType : Lexeme.IsWord typeName.toList)
    (isMethod : Lexeme.IsWord method.toList) {entries : List NamedEntry}
    (areTexts : ∀ named ∈ entries, IsAccessorText named.name.toList) :
    IsBareFile (errorCodes frame typeName method entries) := by
  have isHead : IsClassHead ("public static class " ++ method) ["public", "static"] method :=
    ⟨by decide, isMethod, "public static class ", rfl, by simp⟩
  have constants : Holds BareMember (lines (entries.map codeConstant)) :=
    .lines (List.forall_mem_map.mpr fun named member => holds_codeConstant (areTexts named member))
  refine isBareFile_inFrame proper (isClassHead_repository.holdsItem (.lines ?_))
  refine List.forall_mem_singleton.mpr ((isClassHead_errors isType).holdsMember (.lines ?_))
  exact List.forall_mem_singleton.mpr (isHead.holdsMember constants)

/-- The directives that tell the variants of a build apart. -/
private def directives : List String := ["#if", "#else", "#endif"]

private theorem neat_directive {line : String} (isDirective : line ∈ directives) :
    Layout.Neat line.toList := by
  have solid :
      directives.all (fun line => !line.isEmpty && line.toList.all Layout.isSolid) = true := by
    decide
  obtain ⟨nonempty, isSolid⟩ := Bool.and_eq_true_iff.mp (List.all_eq_true.mp solid line isDirective)
  exact .of_solid (by simpa using nonempty) (List.all_eq_true.mp isSolid)

/-- The line in front of the text with messages. -/
theorem neat_ifSymbol {debugSymbol : String} (isSymbol : Lexeme.IsWord debugSymbol.toList) :
    Layout.Neat ("#if " ++ debugSymbol).toList := by
  simpa using (neat_directive (by decide : "#if" ∈ directives)).spaced (.of_isWord isSymbol)

/-- The lines that tell the variants apart write no tokens. -/
theorem laysOut_inVariant {debugSymbol : String} {text : Bool → String}
    {parts : Bool → List (List TokenKind)}
    (isSymbol : Lexeme.IsWord debugSymbol.toList)
    (layOut : ∀ withMessage, LaysOut (text withMessage) (parts withMessage).flatten)
    (variant : Variant) :
    LaysOut (inVariant variant debugSymbol text) (variant.messages.flatMap parts).flatten := by
  cases variant with
  | debug => simpa [Variant.messages, inVariant] using layOut true
  | release => simpa [Variant.messages, inVariant] using layOut false
  | both =>
      have ifSymbol : LaysOut ("#if " ++ debugSymbol) [] := by
        have spelled : "#if " ++ debugSymbol = "#" ++ ("if " ++ debugSymbol) := by
          simp [← String.toList_inj]
        exact spelled ▸ .directive (spelled ▸ neat_ifSymbol isSymbol)
      have elseLine : LaysOut ("#" ++ "else") [] := .directive (neat_directive (by decide))
      have endLine : LaysOut ("#" ++ "endif") [] := .directive (neat_directive (by decide))
      have all := laysOut_lines (.cons ifSymbol (.cons (layOut true) (.cons elseLine
        (.cons (layOut false) (.cons endLine .nil)))))
      simpa [Variant.messages, inVariant] using all

/-- The text for a variant holds what the texts with and without messages hold. -/
private theorem holds_inVariant {sort : List TokenKind → Prop} {debugSymbol : String}
    {text : Bool → String}
    (isSymbol : Lexeme.IsWord debugSymbol.toList)
    (holds : ∀ withMessage, Holds sort (text withMessage))
    (variant : Variant) : Holds sort (inVariant variant debugSymbol text) := by
  choose parts areSort layOut using holds
  refine ⟨variant.messages.flatMap parts, fun kinds member => ?_,
    laysOut_inVariant isSymbol layOut variant⟩
  obtain ⟨withMessage, -, inParts⟩ := List.mem_flatMap.mp member
  exact areSort withMessage kinds inParts

/-- The accessors of a method. -/
theorem isBareFile_methodErrors (proper : IsProperFrame frame)
    (isType : Lexeme.IsWord typeName.toList)
    (isMethod : Lexeme.IsWord method.toList) {resultType debugSymbol : String}
    (isResult : Lexeme.IsWord resultType.toList) (noType : resultType ∉ plainTypeWords)
    (isSymbol : Lexeme.IsWord debugSymbol.toList) {shape : ReturnShape}
    (spelled : IsSpelledShape shape)
    {entries : List NamedEntry} (areTexts : ∀ named ∈ entries, IsAccessorText named.name.toList)
    (variant : Variant) :
    IsBareFile
      (methodErrors frame typeName method resultType shape entries variant debugSymbol) := by
  have isHead := isClassHead_accessors isMethod
  have accessors (withMessage : Bool) :
      Holds BareMember (accessorClass method resultType shape entries withMessage) :=
    isHead.holdsMember (.lines (List.forall_mem_map.mpr fun named member =>
      holds_accessor isResult noType spelled (areTexts named member) withMessage))
  refine isBareFile_inFrame proper ((isClassHead_provider isType).holdsItem (.lines ?_))
  exact List.forall_mem_singleton.mpr (holds_inVariant isSymbol accessors variant)

end Declarations

section Trace

private theorem noLineEnd_oneLine (text : String) : '\n' ∉ (oneLine text).toList := by
  rw [oneLine, String.toList_map]
  intro member
  obtain ⟨c, -, same⟩ := List.mem_map.mp member
  split at same
  · cases same
  · next other => exact other (.inr same)

/-- The source that lists faults is read as a file without any declaration. -/
theorem readsBare_trace (faults : List String) : ReadsBare (trace faults) := by
  have listed :
      Writes (String.join (faults.map fun fault => "// " ++ oneLine fault ++ "\n")).toList [] := by
    induction faults with
    | nil => exact .nothing
    | cons fault faults ih =>
        have noLineEnd : '\n' ∉ ' ' :: (oneLine fault).toList := by
          simp [noLineEnd_oneLine fault]
        simpa using ih.behind_comment noLineEnd
  have writes : Writes (trace faults).toList ([] : List (List TokenKind)).flatten := by
    unfold trace
    have noLineEnd : '\n' ∉ " resultgen trace".toList := by decide
    simpa using listed.behind_comment noLineEnd
  exact SourceUnit.parse_of_bareItems writes (List.forall_mem_nil _)

end Trace

end Template

end ErrorAccessors
