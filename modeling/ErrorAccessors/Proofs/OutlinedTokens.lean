/-
# Tokens with one outline

Generated files consist of using directives, namespaces, classes and methods.  From the
tokens of such a part it is known, up to places, what is read of it, and the outline of a
file is put together from the outlines of its parts.

A method is read as it is written.  Its parameters and its body only have to have matching
brackets, since they are passed over.
-/

import ErrorAccessors.Proofs.PassingOutline

namespace ErrorAccessors

namespace Parser

section Outlines

/-- What is read of a member of a type is that member up to places. -/
def GivesMember (member : TypeMember) (value : Option TypeMember) : Prop :=
  ∃ read, value = some read ∧ read.unplacedWith MethodDecl.unplaced = member

/-- Tokens of some kinds are read as a member of a type, and they leave no string literal
open. -/
structure OutlinesMember (member : TypeMember) (kinds : List TokenKind) : Prop where
  passes : IsTypeMember (GivesMember member) kinds
  closed : TokenKind.openString ∉ kinds

/-- What is read of an item of a namespace is that item up to places. -/
def GivesItem (item : NamespaceItem) (value : Option NamespaceItem) : Prop :=
  ∃ read, value = some read ∧ read.unplacedWith MethodDecl.unplaced = item

/-- Tokens of some kinds are read as an item of a namespace, and they leave no string literal
open. -/
structure OutlinesItem (item : NamespaceItem) (kinds : List TokenKind) : Prop where
  passes : IsItem (GivesItem item) kinds
  closed : TokenKind.openString ∉ kinds

end Outlines

section Classes

variable {words : List String} {name : String} {members : List TypeMember}
  {parts : List (List TokenKind)}

/-- A class with some modifiers and members, without places. -/
def classOutline (words : List String) (name : String) (members : List TypeMember) : TypeDecl :=
  ⟨.nowhere, .classType, name, .nowhere, [], [], words.map (⟨·, .nowhere⟩), members⟩

private theorem members_of_areOf {values : List (Option TypeMember)}
    (areOf : AreOf (members.map GivesMember) values) :
    TypeMember.unplacedListWith MethodDecl.unplaced (values.filterMap id) = members := by
  rw [TypeMember.unplacedListWith_eq_map]
  induction members generalizing values with
  | nil =>
      cases areOf
      rfl
  | cons member members ih =>
      obtain - | ⟨⟨read, rfl, isMember⟩, later⟩ := areOf
      show read.unplacedWith MethodDecl.unplaced :: _ = _
      rw [isMember, ih later]

private theorem IsWrittenClass.outline {decl : TypeDecl}
    (written : IsWrittenClass words name (members.map GivesMember) decl) :
    decl.unplacedWith MethodDecl.unplaced = classOutline words name members := by
  obtain ⟨span, kind, declName, nameSpan, typeParameters, lists, modifiers, declMembers⟩ := decl
  obtain ⟨rfl, rfl, rfl, rfl, rfl, values, areOf, rfl⟩ := written
  rw [TypeDecl.unplacedWith, members_of_areOf areOf, classOutline, List.map_map]
  rfl

private theorem isTypeMembers (areMembers : List.Forall₂ OutlinesMember members parts) :
    List.Forall₂ IsTypeMember (members.map GivesMember) parts :=
  List.forall₂_map_left_iff.mpr (areMembers.imp fun _ _ outlines => outlines.passes)

/-- A class is read as a member of a type. -/
theorem outlinesMember_class (modify : ∀ word ∈ words, word ∈ modifierWords)
    (areMembers : List.Forall₂ OutlinesMember members parts) :
    OutlinesMember (.type (classOutline words name members)) (classKinds words name parts) := by
  refine ⟨fun depth enough => ?_,
    closed_classKinds (forall_mem_of_forall₂ areMembers fun _ _ => OutlinesMember.closed)⟩
  refine (isTypeMember_writtenClass modify (isTypeMembers areMembers) depth enough).mono ?_
  rintro value ⟨decl, rfl, written⟩
  exact ⟨_, rfl, congrArg TypeMember.type written.outline⟩

/-- A class is read as an item of a namespace. -/
theorem outlinesItem_class (modify : ∀ word ∈ words, word ∈ modifierWords)
    (areMembers : List.Forall₂ OutlinesMember members parts) :
    OutlinesItem (.member (.type (classOutline words name members)))
      (classKinds words name parts) := by
  refine ⟨fun depth enough => ?_,
    closed_classKinds (forall_mem_of_forall₂ areMembers fun _ _ => OutlinesMember.closed)⟩
  refine (isItem_writtenClass modify (isTypeMembers areMembers) depth enough).mono ?_
  rintro value ⟨decl, rfl, written⟩
  exact ⟨_, rfl, congrArg (fun decl => NamespaceItem.member (.type decl)) written.outline⟩

end Classes

section Namespaces

variable {items : List NamespaceItem} {parts : List (List TokenKind)}

/-- A using directive is read unless it is taken for a statement. -/
theorem outlinesItem_using {kind : UsingKind} {kinds : List TokenKind}
    (target : TargetKinds kind kinds)
    (noVar : kinds.head? ≠ some (.ident "var")) :
    OutlinesItem (.directive ⟨.nowhere, false, kind⟩) (usingKinds kinds) := by
  refine ⟨fun depth enough => ?_, by simp [usingKinds, target.closed]⟩
  refine (isItem_using target noVar depth enough).mono ?_
  rintro value ⟨span, rfl⟩
  exact ⟨_, rfl, rfl⟩

/-- What a namespace holds without places: its items, directives apart from declarations. -/
def bodyOutline (items : List NamespaceItem) : NamespaceBody :=
  items.foldl NamespaceBody.add ⟨[], []⟩

private theorem unplacedWith_add (left : MethodDecl → MethodDecl) (body : NamespaceBody)
    (item : NamespaceItem) : (body.add item).unplacedWith left =
      (body.unplacedWith left).add (item.unplacedWith left) := by
  cases item <;>
    simp [NamespaceBody.add, NamespaceBody.unplacedWith, NamespaceItem.unplacedWith,
      NamespaceMember.unplacedListWith_eq_map]

private theorem body_of_areOf {values : List (Option NamespaceItem)}
    (areOf : AreOf (items.map GivesItem) values) (body : NamespaceBody) :
    (values.foldl (addIfAny NamespaceBody.add) body).unplacedWith MethodDecl.unplaced =
      items.foldl NamespaceBody.add (body.unplacedWith MethodDecl.unplaced) := by
  induction items generalizing values body with
  | nil =>
      cases areOf
      rfl
  | cons item items ih =>
      obtain - | ⟨⟨read, rfl, isItem⟩, later⟩ := areOf
      rw [List.foldl_cons, List.foldl_cons, ih later]
      show items.foldl NamespaceBody.add ((body.add read).unplacedWith _) = _
      rw [unplacedWith_add, isItem]

private theorem isItems (areItems : List.Forall₂ OutlinesItem items parts) :
    List.Forall₂ IsItem (items.map GivesItem) parts :=
  List.forall₂_map_left_iff.mpr (areItems.imp fun _ _ outlines => outlines.passes)

/-- A namespace is read with its items. -/
theorem outlinesItem_namespace {name : String} {names : List String}
    (areItems : List.Forall₂ OutlinesItem items parts) :
    OutlinesItem (.member (.space ⟨.nowhere, ".".intercalate (name :: names), false,
        (bodyOutline items).usings, (bodyOutline items).members⟩))
      (namespaceKinds name names parts) := by
  refine ⟨fun depth enough => ?_,
    closed_namespaceKinds (forall_mem_of_forall₂ areItems fun _ _ => OutlinesItem.closed)⟩
  refine (isItem_namespace (isItems areItems) depth enough).mono ?_
  rintro value ⟨⟨span, declName, isFileScoped, usings, members⟩, rfl, written⟩
  obtain ⟨rfl, rfl, values, areOf, isBody⟩ := written
  refine ⟨_, rfl, ?_⟩
  have isOutline := body_of_areOf areOf ⟨[], []⟩
  rw [← isBody] at isOutline
  rw [bodyOutline, ← show _ = items.foldl NamespaceBody.add ⟨[], []⟩ from isOutline]
  rfl

end Namespaces

section Methods

variable {type : TypeExpr} {name : String} {typeKinds list body : List TokenKind}

/-- A public method whose body is an expression, without places. -/
def methodOutline (type : TypeExpr) (name : String) (generics : List String) : MethodDecl :=
  ⟨.nowhere, [], [⟨"public", .nowhere⟩], type, name, .nowhere, generics, .expression⟩

/-- The tokens of a public method whose body is an expression. -/
def methodKinds (typeKinds nameKinds : List TokenKind) (generics : List String)
    (list body : List TokenKind) : List TokenKind :=
  .ident "public" :: (typeKinds ++ (nameKinds ++ (parameterKinds generics ++
    .mark .leftParen ::
      (list ++ .mark .rightParen :: .mark .arrow :: (body ++ [.mark .semicolon])))))

/-- A method that has been read as it was written, without its places. -/
private theorem unplaced_of_isReadAs {file : SourceFile} {written : WrittenMethod file}
    {method : MethodDecl} (isRead : written.IsReadAs method) {words : List String}
    (areWords : written.wordTokens.map (·.kind) = words.map .ident) :
    method.unplaced = ⟨.nowhere, written.lists.map AttributeList.unplaced,
      words.map (⟨·, .nowhere⟩), written.returnType.unplaced, written.name, .nowhere,
      written.typeParameters, written.body⟩ := by
  have keywords := keywords_of_idents (isRead.words.trans areWords)
  have modifiers : method.modifiers.map Modifier.unplaced = words.map (⟨·, .nowhere⟩) := by
    rw [← keywords, List.map_map]
    rfl
  rw [MethodDecl.unplaced, isRead.lists, isRead.returnType, isRead.name, isRead.typeParameters,
    isRead.body, modifiers]

/-- Such a method is read as a member of a type. -/
theorem outlinesMember_method {result : String} (generics : List String)
    (spells : Spells (.ident result :: typeKinds) (.type type))
    (plainType : result ∉ modifierWords ∧ result ∉ typeWords ∧ result ∉ otherMemberWords)
    (plainName : name ≠ "operator" ∧ name ≠ "this") (bracketedType : Bracketed typeKinds)
    (bracketedList : Bracketed list) (bracketedBody : Bracketed body) :
    OutlinesMember (.method (methodOutline type name generics))
      (methodKinds (.ident result :: typeKinds) [.ident name] generics list body) := by
  refine ⟨fun depth _ => ⟨⟨.ident "public", rfl, nofun, nofun, nofun⟩, ?_⟩, ?_⟩
  · intro file previous tokens rest recorded areKinds _
    obtain ⟨isPublic, tokens, rfl, modifies, areKinds⟩ := List.map_eq_cons_iff.mp areKinds
    obtain ⟨typeTokens, tokens, rfl, areType, areKinds⟩ := List.map_eq_append_iff.mp areKinds
    rw [List.singleton_append] at areKinds
    obtain ⟨nameToken, tokens, rfl, isName, areKinds⟩ := List.map_eq_cons_iff.mp areKinds
    obtain ⟨parameterTokens, tokens, rfl, areParameters, areKinds⟩ :=
      List.map_eq_append_iff.mp areKinds
    have areBoth : tokens.map (·.kind) = (.mark .leftParen :: (list ++ [.mark .rightParen])) ++
        .mark .arrow :: (body ++ [.mark .semicolon]) := by
      rw [areKinds]
      simp
    obtain ⟨listTokens, bodyTokens, rfl, areList, areBody⟩ := List.map_eq_append_iff.mp areBoth
    obtain ⟨arrow, behind, rfl, arrows, behindKinds⟩ := List.map_eq_cons_iff.mp areBody
    obtain ⟨inner, last, rfl, innerKinds, lastKind⟩ := List.map_eq_append_iff.mp behindKinds
    obtain ⟨semicolon, rfl, ends⟩ := List.map_eq_singleton_iff.mp lastKind
    obtain ⟨returnType, same, read⟩ := @type_of_spelled _ _ spells file none typeTokens [] []
      areType ⟨⟨nofun, nofun, nofun⟩, nofun, nofun, nofun⟩
    rw [List.append_nil] at read
    let written : WrittenMethod file :=
      { attributeTokens := []
        lists := []
        wordTokens := [isPublic]
        typeTokens := typeTokens
        returnType := returnType
        nameToken := nameToken
        name := name
        parameterTokens := parameterTokens
        typeParameters := generics
        listTokens := listTokens
        bodyTokens := arrow :: (inner ++ [semicolon])
        body := .expression
        attributes_read := ⟨none, rfl⟩
        words_modify := List.forall_mem_singleton.mpr ⟨"public", by decide, modifies⟩
        type_read := ⟨_, read⟩
        type_plain := by
          intro word isFirst
          obtain rfl : result = word := by simpa [← List.head?_map, areType] using isFirst
          exact plainType
        name_kind := isName
        name_plain := plainName
        parameters_read := by
          by_cases none : generics = []
          · refine .inl ⟨?_, none⟩
            simpa [parameterKinds, none] using areParameters
          · have parameters :=
              @typeParameters_of_names file .none parameterTokens [] [] _ none areParameters
            rw [List.append_nil] at parameters
            exact .inr ⟨_, parameters⟩
        list_enclosed := enclosed_of_bracketed (by decide) bracketedList areList
        body_written := .expression arrows
          (skippedBy_of_bracketed skipsInner_statementAction bracketedBody innerKinds) ends }
    have noParen : ¬written.IsTakenForOther := by
      rintro ⟨-, paren⟩
      rw [← List.head?_map, show typeTokens.map (·.kind) = _ from areType] at paren
      cases paren
    obtain ⟨method, isRead, run⟩ :=
      written.typeMember_of_method (typeDeclWithin depth) previous rest recorded noParen
    refine ⟨some (.method method), ⟨_, rfl, congrArg TypeMember.method ?_⟩, run⟩
    have words : written.wordTokens.map (·.kind) = ["public"].map .ident := by
      simp [written, modifies]
    rw [unplaced_of_isReadAs isRead words, ← same]
    rfl
  · simp [methodKinds, bracketedType.closed, bracketedList.closed, bracketedBody.closed,
      (bracketed_parameterKinds generics).closed]

end Methods

end Parser

open ErrorAccessors.Parser

/-- A text that writes items of known outlines is parsed as the file with these items. -/
theorem SourceUnit.parse_of_outlines {text : String} {items : List NamespaceItem}
    {parts : List (List TokenKind)} (writes : Writes text.toList parts.flatten)
    (areItems : List.Forall₂ OutlinesItem items parts) (path : String) :
    ∃ unit, SourceUnit.parse text path = .ok unit ∧
      unit.unplaced =
        ⟨path, .nowhere, (bodyOutline items).usings, (bodyOutline items).members⟩ := by
  have closed := closed_flatten (forall_mem_of_forall₂ areItems fun _ _ => OutlinesItem.closed)
  obtain ⟨values, areOf, body, rfl, span, run⟩ :=
    SourceUnit.parse_of_writtenItems writes (isItems areItems) closed path
  refine ⟨_, run, ?_⟩
  rw [bodyOutline,
    ← show _ = items.foldl NamespaceBody.add ⟨[], []⟩ from body_of_areOf areOf ⟨[], []⟩]
  rfl

end ErrorAccessors
