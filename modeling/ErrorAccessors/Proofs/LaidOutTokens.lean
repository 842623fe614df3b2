/-
# The layout changes no token

Templates write code without regard to its looks, and the layout works on lines and on its
own idea of literals and comments.  What the templates write from the model of a site is
read as the same tokens before and after it has been laid out, for whatever messages,
names and types there are.  The accessors stand in their source one behind the other, each
with the tokens that it has by itself, and one that carries its message ends with the
literal for exactly this message.
-/

import ErrorAccessors.Proofs.RecoveredAccessors

namespace ErrorAccessors

open ErrorAccessors.Parser

/-- The kinds of the tokens of a text, with their values. -/
def Token.kindsOf (path text : String) : List TokenKind :=
  (tokens (.ofText path text)).map (·.kind)

namespace Template

section Accessors

variable {resultType : String} {shape : ReturnShape} {named : NamedEntry}

/-- The tokens with which an accessor ends that carries a message. -/
def messageKinds (message : String) : List TokenKind :=
  [.mark .comma, .ident "errorMessage", .mark .colon, .string message, .mark .rightParen,
    .mark .semicolon]

/-- The end of the call with which an accessor ends. -/
private theorem writesNeatly_callEnd :
    WritesNeatly [')', ';'] [.mark .rightParen, .mark .semicolon] :=
  (WritesNeatly.mark (c := ';') rfl (by decide)).behind_mark (c := ')') rfl (by decide)

/-- Arguments are written in front of the end of a call, and a message behind them is written
as one more argument. -/
private theorem exists_writesNeatly_arguments {arguments : String} (isValue : IsValue arguments)
    (withMessage : Bool) (message : String) :
    ∃ kinds, WritesNeatly (arguments ++
        (if withMessage then ", errorMessage: " ++ StringLiteral.encode message else "") ++
        ");").toList kinds ∧ (withMessage = true → messageKinds message <:+ kinds) := by
  obtain ⟨kinds, -, written⟩ := isValue
  cases withMessage with
  | false =>
      have closed := written ')' _ _ ⟨Lexeme.notWord_of_single rfl, by decide⟩ writesNeatly_callEnd
      exact ⟨_, by simpa using closed, nofun⟩
  | true =>
      have isLabel : Lexeme.IsWord "errorMessage".toList := isWord_of_mem (by decide)
      have literal := writesNeatly_callEnd.behind_literal message
      have labelled := (WritesNeatly.word isLabel).append literal.behind_colon fun d isHead => by
        obtain rfl := Option.some.inj isHead
        exact Lexeme.notWord_of_single (c := ':') rfl
      have last := (WritesNeatly.mark (c := ',') rfl (by decide)).spaced labelled
      have whole := written ',' _ _ ⟨Lexeme.notWord_of_single rfl, by decide⟩ last
      exact ⟨kinds ++ messageKinds message, by simpa [messageKinds] using whole,
        fun _ => List.suffix_append _ _⟩

/-- An accessor is code up to the arguments of its result, and its message is the last of
these. -/
private theorem exists_call (isType : Lexeme.IsWord resultType.toList)
    (spelled : IsSpelledShape shape) (isText : IsAccessorText named.name.toList) :
    ∃ head arguments kinds, WritesNeatly head.toList kinds ∧ IsValue arguments ∧
      ∀ withMessage, accessor resultType shape withMessage named = head ++ "(" ++ (arguments ++
        (if withMessage then ", errorMessage: " ++ StringLiteral.encode named.entry.message
          else "") ++ ");") := by
  cases carries : shape.payload.type? with
  | none =>
      obtain ⟨nameKinds, declared⟩ := @exists_isDeclaredName resultType _ isText
      have isPublic : Lexeme.IsWord "public".toList := isWord_of_mem (by decide)
      have isNew : Lexeme.IsWord "new".toList := isWord_of_mem (by decide)
      have result := (WritesNeatly.word isNew).spaced (.word isType)
      have typed := (WritesNeatly.word isType).spaced (declared.written _ _ result.behind_arrow)
      have whole := (WritesNeatly.word isPublic).spaced typed
      refine ⟨"public " ++ resultType ++ " " ++ named.name ++ " => new " ++ resultType,
        "succeeded: false, errorCode: " ++ toString named.entry.code, ?_⟩
      refine ⟨_, by simpa using whole, isValue_code named.entry.code, fun withMessage => ?_⟩
      simp [accessor, carries, ← String.toList_inj]
  | some carried =>
      have isCarried := (spelled.payload carried carries).isCode
      obtain ⟨d, behind, list, result, separator, -, -, isHead, written⟩ :=
        exists_writesNeatly_methodHead isType isCarried spelled.generics
      obtain ⟨inside, -, writtenInside⟩ := isCarried
      obtain ⟨nameKinds, -, -, writes⟩ := isText.exists_kinds separator
      have declared : WritesNeatly (named.name.toList ++ d :: behind) _ :=
        ⟨writes behind _ written.writes, isText.neat.append written.neat⟩
      rw [← isHead] at declared
      have whole := writesNeatly_publicResult isType writtenInside declared
      refine ⟨"public " ++ (resultType ++ "<" ++ carried ++ ">") ++ " " ++ named.name ++
          genericList shape.generics ++ "(" ++ carried ++ " response = default) => new " ++
          (resultType ++ "<" ++ carried ++ ">"),
        "succeeded: false, errorCode: " ++ toString named.entry.code ++ ", response: response", ?_⟩
      refine ⟨_, by simpa using whole, isValue_response named.entry.code, fun withMessage => ?_⟩
      simp [accessor, carries, ← String.toList_inj]

/-- An accessor is neatly written, and with its message it ends with the literal for it. -/
theorem exists_writesNeatly_accessor (isType : Lexeme.IsWord resultType.toList)
    (spelled : IsSpelledShape shape) (isText : IsAccessorText named.name.toList)
    (withMessage : Bool) :
    ∃ kinds, WritesNeatly (accessor resultType shape withMessage named).toList kinds ∧
      (withMessage = true → messageKinds named.entry.message <:+ kinds) := by
  obtain ⟨head, arguments, headKinds, writtenHead, isValue, isAccessor⟩ :=
    exists_call isType spelled isText
  obtain ⟨kinds, written, ends⟩ :=
    exists_writesNeatly_arguments isValue withMessage named.entry.message
  refine ⟨headKinds ++ .mark .leftParen :: kinds, ?_, fun isWith => ?_⟩
  · rw [isAccessor]
    simpa using writtenHead.append_mark (c := '(') rfl (by decide) written
  · exact (ends isWith).trans ((List.suffix_cons _ _).trans (List.suffix_append _ _))

/-- An accessor writes its tokens. -/
private theorem writesNeatly_accessor (isType : Lexeme.IsWord resultType.toList)
    (spelled : IsSpelledShape shape) (isText : IsAccessorText named.name.toList)
    (withMessage : Bool) (path : String) :
    WritesNeatly (accessor resultType shape withMessage named).toList
      (Token.kindsOf path (accessor resultType shape withMessage named)) := by
  obtain ⟨kinds, written, -⟩ := exists_writesNeatly_accessor isType spelled isText withMessage
  rwa [Token.kindsOf, written.writes.map_kind_tokens]

/-- An accessor that carries its message ends with the literal for it. -/
theorem messageKinds_suffix_accessor (isType : Lexeme.IsWord resultType.toList)
    (spelled : IsSpelledShape shape) (isText : IsAccessorText named.name.toList) (path : String) :
    messageKinds named.entry.message <:+
      Token.kindsOf path (accessor resultType shape true named) := by
  obtain ⟨kinds, written, ends⟩ := exists_writesNeatly_accessor isType spelled isText true
  rw [Token.kindsOf, written.writes.map_kind_tokens]
  exact ends rfl

end Accessors

section Errors

private theorem infix_classKinds (words : List String) (name : String)
    (members : List (List TokenKind)) : members.flatten <:+: classKinds words name members :=
  ⟨words.map .ident ++ [.ident "class", .ident name, .mark .leftBrace], [.mark .rightBrace],
    by simp [classKinds, bareClassKinds]⟩

private theorem infix_frameItems {space : String} {items all : List (List TokenKind)}
    (areItems : FrameItems space items all) : items.flatten <:+: all.flatten := by
  cases areItems with
  | outside noSpace => exact List.infix_refl _
  | @inside first others nonempty isName =>
      exact ⟨.ident "namespace" :: .ident first :: dotKinds others ++ [.mark .leftBrace],
        [.mark .rightBrace], by simp [namespaceKinds]⟩

variable {frame : Frame} {typeName method resultType debugSymbol : String} {shape : ReturnShape}
  {entries : List NamedEntry}

/-- Laid out in their source, the accessors of a method stand one behind the other for each
time that they are emitted, with the tokens that they have by themselves. -/
theorem accessors_infix_methodErrors (proper : IsProperFrame frame)
    (isTypeName : Lexeme.IsWord typeName.toList) (isMethod : Lexeme.IsWord method.toList)
    (isResult : Lexeme.IsWord resultType.toList) (isSymbol : Lexeme.IsWord debugSymbol.toList)
    (spelled : IsSpelledShape shape)
    (areTexts : ∀ named ∈ entries, IsAccessorText named.name.toList) {variant : Variant}
    {withMessage : Bool} (isEmitted : withMessage ∈ variant.messages) (path : String) :
    (entries.flatMap fun named =>
        Token.kindsOf path (accessor resultType shape withMessage named)) <:+:
      Token.kindsOf path (Layout.normalize
        (methodErrors frame typeName method resultType shape entries variant debugSymbol)) := by
  let parts (withMessage : Bool) := entries.map fun named =>
    Token.kindsOf path (accessor resultType shape withMessage named)
  let classOf (withMessage : Bool) := classKinds ["public"] (method ++ "Errors") (parts withMessage)
  have classes (withMessage : Bool) :
      LaysOut (accessorClass method resultType shape entries withMessage)
        [classOf withMessage].flatten := by
    have inside : LaysOut (lines (entries.map (accessor resultType shape withMessage)))
        (parts withMessage).flatten := by
      refine laysOut_lines ?_
      rw [List.forall₂_map_left_iff, List.forall₂_map_right_iff, List.forall₂_same]
      exact fun named member => .code
        (writesNeatly_accessor isResult spelled (areTexts named member) withMessage path)
    rw [List.flatten_singleton]
    exact (isClassHead_accessors isMethod).laysOut inside
  have provider := (isClassHead_provider isTypeName).laysOut (laysOut_lines
    (.cons (laysOut_inVariant isSymbol classes variant) .nil))
  obtain ⟨runtime, -, written, -⟩ := exists_targetKinds proper.runtime
  rw [← List.flatten_singleton (l := classKinds _ _ _)] at provider
  obtain ⟨text, kinds, targets, items, isText, -, -, areItems, whole⟩ :=
    exists_laysOut_inFrame proper written provider
  rw [methodErrors, isText, Token.kindsOf, whole.writes_normalize.map_kind_tokens]
  -- from the accessors to their class, the variant, the provider, its namespace and the file
  have inVariant : (parts withMessage).flatten <:+:
      (variant.messages.flatMap fun withMessage => [classOf withMessage]).flatten :=
    (infix_classKinds _ _ _).trans (List.infix_of_mem_flatten
      (List.mem_flatMap.mpr ⟨withMessage, isEmitted, List.mem_singleton_self _⟩))
  have inProvider := inVariant.trans ((List.infix_of_mem_flatten (List.mem_singleton_self _)).trans
    (infix_classKinds ["public", "partial"] (typeName ++ "ResultsProvider") _))
  have inSpace := inProvider.trans (List.infix_of_mem_flatten
    (List.mem_append_right (targets.map usingKinds) (List.mem_singleton_self _)))
  have inFile := (inSpace.trans (infix_frameItems areItems)).trans
    (List.suffix_append (usingKinds runtime) _).isInfix
  simpa only [List.flatMap_def, List.flatten_cons] using inFile

end Errors

end Template

/-- Every artifact that is made from a proper model is a template laid out, and the layout
changes none of its tokens. -/
theorem SiteModel.IsProper.exists_template {model : SiteModel} {settings : Settings}
    (proper : model.IsProper) (uses : settings.UsesIdentifiers) {entries : List NamedEntry}
    (named : (model.named settings.emission).outcome = .ok entries) (ledger : Ledger) :
    ∀ artifact ∈ (ledger.select (model.sharedArtifacts settings.emission)).1 ++
        model.ownArtifacts settings entries,
      ∃ text, (artifact.key, text) ∈
          model.sharedTemplates settings.emission ++ model.ownTemplates settings entries ∧
        artifact.text = Layout.normalize text ∧
        ∀ path, Token.kindsOf path artifact.text = Token.kindsOf path text := by
  intro artifact member
  have made : artifact ∈ model.sharedArtifacts settings.emission ++
      model.ownArtifacts settings entries :=
    List.mem_append.mpr ((List.mem_append.mp member).imp_left Ledger.mem_of_mem_select)
  rw [sharedArtifacts_eq_templates, ownArtifacts_eq_templates, ← List.map_append] at made
  obtain ⟨template, isTemplate, rfl⟩ := List.mem_map.mp made
  have areBare := List.forall_mem_append.mpr
    ⟨proper.isBareFile_shared uses, proper.isBareFile_own uses named⟩
  exact ⟨template.2, isTemplate, rfl, (areBare template isTemplate).map_kind_tokens_normalize⟩

namespace Generation

variable {units : List SourceUnit} {site : MarkedSite}

/-- With the default settings, whatever the build variant is, every site of parsed files emits
artifacts.  Each of them is what a template makes of the model of the site, laid out, and has
the tokens that it had before.  The accessors stand in their source one behind the other with
their own tokens, and one that carries its message ends with the literal for exactly this
message. -/
theorem layout_keeps_tokens (parsed : ∀ unit ∈ units, unit.IsParsed)
    (isSite : site ∈ MarkedSite.ofUnits {} units) (variant : Variant) (ledger : Ledger) :
    let settings := Settings.ofVariant variant
    ∃ model entries artifacts, (site.read (.ofUnits units) {} {}).outcome = .ok (some model) ∧
      (model.named settings.emission).outcome = .ok entries ∧
      entries.map (·.entry) = model.entries ∧
      (runSite (.ofUnits units) settings ledger site).1.outcome = .emitted artifacts ∧
      (∀ artifact ∈ artifacts, ∃ text, (artifact.key, text) ∈
          model.sharedTemplates settings.emission ++ model.ownTemplates settings entries ∧
        artifact.text = Layout.normalize text ∧
        ∀ path, Token.kindsOf path artifact.text = Token.kindsOf path text) ∧
      (∃ artifact ∈ artifacts,
        artifact.key = .ofMethod .methodErrors site.space site.typeName site.method ∧
        ∀ path, ∀ withMessage ∈ variant.messages,
          (entries.flatMap fun named => Token.kindsOf path
              (Template.accessor "Result" model.shape withMessage named)) <:+:
            Token.kindsOf path artifact.text) ∧
      ∀ named ∈ entries, ∀ path, Template.messageKinds named.entry.message <:+
        Token.kindsOf path (Template.accessor "Result" model.shape true named) := by
  intro settings
  obtain ⟨model, rfl, read, -⟩ := MarkedSite.exists_model parsed isSite {}
  obtain ⟨entries, named⟩ := @SiteModel.exists_named settings.emission model nofun nofun
  have proper := MarkedSite.isProper_of_read parsed isSite read
  have uses : settings.UsesIdentifiers := .of_defaults rfl rfl rfl
  have areTexts := SiteModel.areAccessorTexts_named named
  have isResult : Lexeme.IsWord "Result".toList := uses.resultType.isWord
  have emitted := SiteModel.emit_of_named named ledger
  refine ⟨model, entries, _, read, named, (SiteModel.derived_named named).1, ?_,
    proper.exists_template uses named ledger,
    ⟨_, List.mem_append_right _ List.mem_cons_self, rfl, fun path withMessage isEmitted => ?_⟩,
    fun entry member path => ?_⟩
  · have isRead : (model.site.read (.ofUnits units) settings.marker settings.grammar).outcome =
        .ok (some model) := read
    simp only [runSite, isRead, emitted]
  · exact Template.accessors_infix_methodErrors (proper.isProperFrame_importing uses)
      proper.typeName proper.method isResult uses.debugSymbol.isWord proper.shape areTexts isEmitted
      path
  · exact Template.messageKinds_suffix_accessor isResult proper.shape (areTexts entry member) path

/-- A file with a marked method, and a message that looks like literals, comments and braces. -/
private def tillText : String :=
  "namespace Shop \x7b class Till \x7b [ErrorResult(1, \"a \\\"b\\\"  // \x7b \\\\\")] " ++
    "[ErrorResult(-2, \"'/*\\t#\")] public Task<Result<int[]>> Count<T>() => null; \x7d \x7d"

/-- The literals for both messages are read from the source with the accessors of that
method. -/
theorem layout_keeps_tokens_of_till :
    ∃ unit site artifacts, SourceUnit.parse tillText "Till.cs" = .ok unit ∧
      (runSite (.ofUnits [unit]) (.ofVariant .both) .empty site).1.outcome = .emitted artifacts ∧
      ∃ artifact ∈ artifacts, artifact.key = .ofMethod .methodErrors "Shop" "Till" "Count" ∧
        ∀ message ∈ ["a \"b\"  // \x7b \\", "'/*\t#"], ∀ path,
          Template.messageKinds message <:+: Token.kindsOf path artifact.text := by
  have seen : (SourceUnit.parse tillText "Till.cs").toOption.map (fun unit =>
      (MarkedSite.ofUnits {} [unit]).map fun site => (site.place,
        ((site.read (.ofUnits [unit]) {} {}).outcome.toOption.bind id).map (·.entries))) =
      some [(("Shop", "Till", "Count"),
        some [⟨1, "a \"b\"  // \x7b \\"⟩, ⟨-2, "'/*\t#"⟩])] := by
    decide +kernel
  obtain ⟨unit, isUnit, parsed, isView⟩ := SourceUnit.exists_of_parse seen
  obtain ⟨site, areSites, isView⟩ := List.map_eq_singleton_iff.mp isView
  have isSite : site ∈ MarkedSite.ofUnits {} [unit] := areSites ▸ List.mem_singleton_self site
  obtain ⟨model, entries, artifacts, read, -, areEntries, emitted, -,
    ⟨artifact, isMade, isKey, accessors⟩, ends⟩ := layout_keeps_tokens parsed isSite .both .empty
  rw [read] at isView
  simp only [Except.toOption, Option.bind_some, id, Option.map_some, Option.some.injEq,
    Prod.mk.injEq, MarkedSite.place] at isView
  obtain ⟨⟨isSpace, isTypeName, isMethod⟩, isModel⟩ := isView
  rw [isSpace, isTypeName, isMethod] at isKey
  have messages : entries.map (·.entry.message) = ["a \"b\"  // \x7b \\", "'/*\t#"] := by
    have mapped := congrArg (List.map (·.message)) (areEntries.trans isModel)
    rwa [List.map_map] at mapped
  refine ⟨unit, site, artifacts, isUnit, emitted, artifact, isMade, isKey, ?_⟩
  rw [← messages]
  refine List.forall_mem_map.mpr fun named isNamed path => ?_
  have inAccessors : Token.kindsOf path (Template.accessor "Result" model.shape true named) <:+:
      entries.flatMap fun named =>
        Token.kindsOf path (Template.accessor "Result" model.shape true named) :=
    List.infix_of_mem_flatten (List.mem_map.mpr ⟨named, isNamed, rfl⟩)
  exact ((ends named isNamed path).isInfix.trans inAccessors).trans
    (accessors path true List.mem_cons_self)

end Generation

end ErrorAccessors
