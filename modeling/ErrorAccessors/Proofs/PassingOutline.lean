/-
# Passing generated outlines

Generated files consist of using directives, namespaces and classes.  What is read of
them is put together from their parts: an item of a namespace is passed without a
diagnostic if everything in it is, and no attribute stands in front of a method in it
if none does in its parts.
-/

import ErrorAccessors.Proofs.PassingMembers

namespace ErrorAccessors

namespace Parser

section Methods

theorem methodsOfList_eq_flatMap (members : List TypeMember) :
    TypeMember.methodsOfList members = members.flatMap fun member =>
      TypeMember.methodsOfList [member] := by
  induction members with
  | nil => rfl
  | cons member members ih =>
      rw [← List.singleton_append, TypeMember.methodsOfList_append, ih]
      rfl

/-- The methods in members that have been read are those in each of them. -/
theorem mem_methodsOfList {values : List (Option TypeMember)} {method : MethodDecl}
    (member : method ∈ TypeMember.methodsOfList (values.filterMap id)) :
    ∃ value ∈ values, method ∈ TypeMember.methodsOfList value.toList := by
  rw [methodsOfList_eq_flatMap] at member
  obtain ⟨found, isFound, isMethod⟩ := List.mem_flatMap.mp member
  obtain ⟨value, isValue, same⟩ := List.mem_filterMap.mp isFound
  obtain rfl : value = some found := same
  exact ⟨some found, isValue, isMethod⟩

/-- A class whose members are bare is bare. -/
theorem IsClass.bare {name : String} {count : Nat} {decl : TypeDecl}
    (isClass : IsClass name count GivesBare decl) :
    ∀ method ∈ decl.methods, method.attributeLists = [] := by
  intro method member
  obtain ⟨values, -, areBare, isMembers⟩ := isClass.members
  rw [TypeDecl.methods_eq, isMembers] at member
  obtain ⟨value, isValue, isMethod⟩ := mem_methodsOfList member
  exact areBare value isValue method isMethod

end Methods

/-- Tokens of some kinds are passed as a member of a type in which no method has
attributes, and they leave no string literal open. -/
structure BareMember (kinds : List TokenKind) : Prop where
  passes : IsTypeMember GivesBare kinds
  closed : TokenKind.openString ∉ kinds

/-- No attributes stand in front of the methods in what is read of an item. -/
def GivesBareItem (value : Option NamespaceItem) : Prop :=
  ∀ method ∈ value.toList.flatMap NamespaceItem.methods, method.attributeLists = []

/-- Tokens of some kinds are passed as an item of a namespace in which no method has
attributes, and they leave no string literal open. -/
structure BareItem (kinds : List TokenKind) : Prop where
  passes : IsItem GivesBareItem kinds
  closed : TokenKind.openString ∉ kinds

section Classes

variable {words : List String} {name : String} {members : List (List TokenKind)}

theorem closed_flatten {items : List (List TokenKind)}
    (closed : ∀ kinds ∈ items, TokenKind.openString ∉ kinds) :
    TokenKind.openString ∉ items.flatten := by
  intro isOpen
  obtain ⟨kinds, isItem, within⟩ := List.mem_flatten.mp isOpen
  exact closed kinds isItem within

theorem closed_classKinds (closed : ∀ kinds ∈ members, TokenKind.openString ∉ kinds) :
    TokenKind.openString ∉ classKinds words name members := by
  have inside := closed_flatten closed
  simp [classKinds, bareClassKinds, inside]

/-- A class with bare members is a bare member. -/
theorem bareMember_class (modify : ∀ word ∈ words, word ∈ modifierWords)
    (areMembers : ∀ kinds ∈ members, BareMember kinds) :
    BareMember (classKinds words name members) := by
  refine ⟨fun depth enough => ?_,
    closed_classKinds fun kinds member => (areMembers kinds member).closed⟩
  refine (isTypeMember_class modify (fun kinds member => (areMembers kinds member).passes) depth
    enough).mono ?_
  rintro value ⟨decl, rfl, isClass⟩ method member
  refine isClass.bare method ?_
  simpa [TypeMember.methodsOfList] using member

/-- A class with bare members is a bare item. -/
theorem bareItem_class (modify : ∀ word ∈ words, word ∈ modifierWords)
    (areMembers : ∀ kinds ∈ members, BareMember kinds) :
    BareItem (classKinds words name members) := by
  refine ⟨fun depth enough => ?_,
    closed_classKinds fun kinds member => (areMembers kinds member).closed⟩
  refine (isItem_class modify (fun kinds member => (areMembers kinds member).passes) depth
    enough).mono ?_
  rintro value ⟨decl, rfl, isClass⟩ method member
  refine isClass.bare method ?_
  simpa [NamespaceItem.methods, NamespaceMember.methodsOfList] using member

end Classes

section Directives

/-- The tokens of what a directive brings into scope. -/
inductive TargetKinds : UsingKind → List TokenKind → Prop
  | space {name : String} (names : List String) (noStatic : name ≠ "static") :
      TargetKinds (.ofNamespace (".".intercalate (name :: names))) (.ident name :: dotKinds names)
  | ofStatic {type : TypeExpr} {kinds : List TokenKind} (spells : Spells kinds (.type type)) :
      TargetKinds (.ofStatic type.text) (.ident "static" :: kinds)
  | ofAlias {name : String} {type : TypeExpr} {kinds : List TokenKind} (noStatic : name ≠ "static")
      (spells : Spells kinds (.type type)) :
      TargetKinds (.ofAlias name type.text) (.ident name :: .mark .equals :: kinds)

/-- The tokens of a using directive. -/
def usingKinds (target : List TokenKind) : List TokenKind :=
  .ident "using" :: (target ++ [.mark .semicolon])

variable {file : SourceFile} {previous : Option Token} {tokens rest : List Token}
  {recorded : List Diagnostic} {kinds : List TokenKind} {kind : UsingKind}

theorem bracketed_dotKinds (names : List String) : Bracketed (dotKinds names) := by
  refine .of_inner fun kind member => ?_
  obtain ⟨name, -, isKind⟩ := List.mem_flatMap.mp member
  rcases List.mem_cons.mp isKind with rfl | isKind
  · rfl
  · obtain rfl := List.mem_singleton.mp isKind
    rfl

/-- A type is read in front of a semicolon. -/
private theorem type_of_semicolon {written : TypeExpr} (spells : Spells kinds (.type written))
    (areKinds : tokens.map (·.kind) = kinds) {semicolon : Token}
    (ends : semicolon.kind = .mark .semicolon) :
    ∃ read, read.text = written.text ∧ type file ⟨previous, tokens ++ semicolon :: rest, recorded⟩ =
      .ok read ⟨Token.lastOf previous tokens, semicolon :: rest, recorded⟩ := by
  obtain ⟨read, same, run⟩ := @type_of_spelled _ _ spells file previous tokens (semicolon :: rest)
    recorded areKinds (endsType_of_kind (congrArg some ends) (by decide))
  exact ⟨read, by rw [← TypeExpr.text_unplaced, same], run⟩

/-- Behind its target a directive ends with a semicolon. -/
private theorem directiveEnd_of_semicolon (start : Span) (isGlobal : Bool) (kind : UsingKind)
    {semicolon : Token} (ends : semicolon.kind = .mark .semicolon) :
    ∃ span, directiveEnd start isGlobal kind file ⟨previous, semicolon :: rest, recorded⟩ =
      .ok ⟨span, isGlobal, kind⟩ ⟨some semicolon, rest, recorded⟩ := by
  refine ⟨(Cursor.mk (some semicolon) rest recorded).spanFrom start, ?_⟩
  simp [directiveEnd, bind_apply, expect_apply, ends, -bind_pure_comp]

/-- A using directive is read to its semicolon. -/
private theorem usingDirective_of_kinds (target : TargetKinds kind kinds) (start : Span)
    (isGlobal : Bool) (areKinds : tokens.map (·.kind) = usingKinds kinds) :
    ∃ span, usingDirective start isGlobal file ⟨previous, tokens ++ rest, recorded⟩ =
      .ok ⟨span, isGlobal, kind⟩ ⟨Token.lastOf previous tokens, rest, recorded⟩ := by
  obtain ⟨keyword, behind, rfl, isKeyword, behindKinds⟩ := List.map_eq_cons_iff.mp areKinds
  obtain ⟨targetTokens, last, rfl, targetAre, lastKind⟩ := List.map_eq_append_iff.mp behindKinds
  obtain ⟨semicolon, rfl, ends⟩ := List.map_eq_singleton_iff.mp lastKind
  have ended (last : Option Token) (kind : UsingKind) :=
    @directiveEnd_of_semicolon file last rest recorded start isGlobal kind semicolon ends
  have begun : usingDirective start isGlobal file
      ⟨previous, keyword :: (targetTokens ++ [semicolon]) ++ rest, recorded⟩ =
        directiveRest start isGlobal file
          ⟨some keyword, targetTokens ++ semicolon :: rest, recorded⟩ := by
    rw [usingDirective_eq, bind_apply, eatWord_apply,
      if_pos (by simp [isKeyword, TokenKind.ident?])]
    simp
  rw [begun]
  cases target with
  | @space name names noStatic =>
      obtain ⟨read, rfl, named⟩ := passes_dottedName name names file (some keyword) targetTokens
        (semicolon :: rest) recorded targetAre (by simp [ends])
      obtain ⟨nameToken, others, rfl, isName, otherKinds⟩ := List.map_eq_cons_iff.mp targetAre
      obtain ⟨span, run⟩ := ended (Token.lastOf (some nameToken) others)
        (.ofNamespace (".".intercalate (name :: names)))
      have noAlias : (others.head?.getD semicolon).kind ≠ .mark .equals := by
        cases names with
        | nil =>
            obtain rfl := List.map_eq_nil_iff.mp otherKinds
            simp [ends]
        | cons second names =>
            obtain ⟨dot, others, rfl, isDot, -⟩ := List.map_eq_cons_iff.mp otherKinds
            simp [isDot]
      refine ⟨span, ?_⟩
      rw [List.cons_append] at named
      simp [directiveRest, bind_apply, eatWord_apply, atAlias, isName, TokenKind.ident?, noStatic,
        noAlias, named, run]
  | @ofStatic type kinds spells =>
      obtain ⟨static, typeTokens, rfl, isStatic, typeKinds⟩ := List.map_eq_cons_iff.mp targetAre
      obtain ⟨read, same, typed⟩ := @type_of_semicolon file (some static) typeTokens rest recorded
        kinds type spells typeKinds semicolon ends
      obtain ⟨span, run⟩ := ended (Token.lastOf (some static) typeTokens) (.ofStatic read.text)
      refine ⟨span, ?_⟩
      rw [same] at run
      simp [directiveRest, bind_apply, eatWord_apply, atAlias, isStatic, TokenKind.ident?, typed,
        same, run]
  | @ofAlias name type kinds noStatic spells =>
      obtain ⟨nameToken, behind, rfl, isName, behindKinds⟩ := List.map_eq_cons_iff.mp targetAre
      obtain ⟨equals, typeTokens, rfl, isEquals, typeKinds⟩ := List.map_eq_cons_iff.mp behindKinds
      obtain ⟨read, same, typed⟩ := @type_of_semicolon file (some equals) typeTokens rest recorded
        kinds type spells typeKinds semicolon ends
      obtain ⟨span, run⟩ := ended (Token.lastOf (some equals) typeTokens)
        (.ofAlias name read.text)
      refine ⟨span, ?_⟩
      rw [same] at run
      simp [directiveRest, bind_apply, eatWord_apply, atAlias, isName, isEquals, TokenKind.ident?,
        noStatic, expectIdent_apply, typed, same, run]

/-- In front of the word `var` a using directive is a statement, which is skipped. -/
private theorem namespaceItem_of_var {inner : Span → Parser NamespaceDecl} {cursor later : Cursor}
    (first : cursor.peek? 0 = some (.ident "using")) (second : cursor.peek? 1 = some (.ident "var"))
    (run : skipMember file cursor = .ok () later) :
    namespaceItem inner file cursor = .ok none later := by
  have lists : attributeLists file cursor = .ok [] cursor :=
    attributeLists_of_none file (by simp [first])
  have noModifier : cursor.EndsWords := by
    intro found named modifies
    obtain rfl : "using" = found := by simpa [first, TokenKind.ident?] using named
    exact absurd modifies (by decide)
  obtain ⟨read, none, words⟩ := @modifiers_of_words file [] cursor.remaining
    (List.forall_mem_nil _) cursor.previous cursor.recorded noModifier (absurd rfl)
  have modified : modifiers file cursor = .ok read cursor := words
  have noType : cursor.beginsType = false := by simp [Cursor.beginsType, first, TokenKind.ident?]
  unfold namespaceItem
  simp [bind_apply, first, second, TokenKind.ident?, atUsingDirective, TokenKind.isWord, eat_apply,
    lists, modified, atTypeKeyword_apply, noType, run, -bind_pure_comp]

/-- In front of any other word a using directive is read as one. -/
private theorem namespaceItem_of_using {inner : Span → Parser NamespaceDecl} {cursor later : Cursor}
    {directive : UsingDirective} {word : String} (first : cursor.peek? 0 = some (.ident "using"))
    (second : cursor.peek? 1 = some (.ident word)) (noVar : word ≠ "var")
    (run : usingDirective (cursor.nextSpan file) false file cursor = .ok directive later) :
    namespaceItem inner file cursor = .ok (some (.directive directive)) later := by
  unfold namespaceItem
  simp [bind_apply, first, second, TokenKind.ident?, atUsingDirective, TokenKind.isWord, noVar, run,
    -bind_pure_comp]

/-- What a directive brings into scope begins with a word, and if that is `var` and no name
of an alias, then it is the name of a namespace. -/
private theorem TargetKinds.begins (target : TargetKinds kind kinds) :
    ∃ word more, kinds = .ident word :: more ∧
      (word = "var" → (∀ type, kind ≠ .ofAlias "var" type) →
        ∃ names, kinds = .ident word :: dotKinds names) := by
  cases target with
  | space names noStatic => exact ⟨_, _, rfl, fun _ _ => ⟨names, rfl⟩⟩
  | ofStatic spells => exact ⟨_, _, rfl, fun same _ => absurd same (by decide)⟩
  | @ofAlias name type kinds noStatic spells =>
      refine ⟨_, _, rfl, fun same noAlias => ?_⟩
      exact absurd (congrArg (UsingKind.ofAlias · type.text) same) (noAlias _)

theorem TargetKinds.closed (target : TargetKinds kind kinds) : TokenKind.openString ∉ kinds := by
  cases target with
  | space names noStatic => simp [(bracketed_dotKinds names).closed]
  | ofStatic spells => simp [spells.noOpenString]
  | ofAlias noStatic spells => simp [spells.noOpenString]

/-- The first two tokens of a directive. -/
private theorem peek?_of_usingKinds {word : String} {more : List TokenKind}
    (areKinds : tokens.map (·.kind) = usingKinds (.ident word :: more)) :
    (Cursor.mk previous (tokens ++ rest) recorded).peek? 0 = some (.ident "using") ∧
      (Cursor.mk previous (tokens ++ rest) recorded).peek? 1 = some (.ident word) := by
  obtain ⟨keyword, behind, rfl, isKeyword, behindKinds⟩ := List.map_eq_cons_iff.mp areKinds
  obtain ⟨token, behind, rfl, isWord, -⟩ := List.map_eq_cons_iff.mp behindKinds
  exact ⟨congrArg some isKeyword, congrArg some isWord⟩

/-- A using directive is an item of a namespace unless it is taken for a statement. -/
theorem isItem_using (target : TargetKinds kind kinds) (noVar : kinds.head? ≠ some (.ident "var")) :
    IsItem (fun value => ∃ span, value = some (.directive ⟨span, false, kind⟩))
      (usingKinds kinds) := by
  refine fun depth _ => ⟨⟨.ident "using", rfl, nofun, nofun, nofun⟩, ?_⟩
  intro file previous tokens rest recorded areKinds _
  obtain ⟨word, more, rfl, -⟩ := target.begins
  obtain ⟨first, second⟩ := @peek?_of_usingKinds previous tokens rest recorded word more areKinds
  obtain ⟨span, run⟩ := @usingDirective_of_kinds file previous tokens rest recorded _ kind
    target ((Cursor.mk previous (tokens ++ rest) recorded).nextSpan file) false areKinds
  have plain : word ≠ "var" := by
    rintro rfl
    exact noVar rfl
  exact ⟨_, ⟨span, rfl⟩, namespaceItem_of_using first second plain run⟩

/-- A using directive is a bare item. -/
theorem bareItem_using (target : TargetKinds kind kinds)
    (noStatement : ∀ type, kind ≠ .ofAlias "var" type) :
    BareItem (usingKinds kinds) := by
  refine ⟨?_, by simp [usingKinds, target.closed]⟩
  obtain ⟨word, more, isKinds, isSpace⟩ := target.begins
  by_cases isVar : word = "var"
  · obtain ⟨names, isName⟩ := isSpace isVar noStatement
    refine fun depth _ => ⟨⟨.ident "using", rfl, nofun, nofun, nofun⟩, ?_⟩
    intro file previous tokens rest recorded areKinds _
    rw [isName] at areKinds
    obtain ⟨first, second⟩ := @peek?_of_usingKinds previous tokens rest recorded word _ areKinds
    refine ⟨none, List.forall_mem_nil _, ?_⟩
    exact namespaceItem_of_var first (isVar ▸ second)
      (skipMember_of_bracketed (.inner rfl (.inner rfl (bracketed_dotKinds names))) areKinds file
        previous rest recorded)
  · have noVar : kinds.head? ≠ some (.ident "var") := by
      rw [isKinds]
      exact fun same => isVar (TokenKind.ident.inj (Option.some.inj same))
    refine fun depth enough => (isItem_using target noVar depth enough).mono ?_
    rintro value ⟨span, rfl⟩
    exact List.forall_mem_nil _

end Directives

section Namespaces

variable {file : SourceFile} {previous : Option Token} {tokens rest : List Token}
  {recorded : List Diagnostic} {items : List (List TokenKind)}
  {sorts : List (Option NamespaceItem → Prop)}

/-- The tokens of a namespace with its items between braces. -/
def namespaceKinds (name : String) (names : List String) (items : List (List TokenKind)) :
    List TokenKind :=
  .ident "namespace" :: ((.ident name :: dotKinds names) ++
    .mark .leftBrace :: (items.flatten ++ [.mark .rightBrace]))

/-- A namespace between braces with items of certain sorts, as it was written. -/
structure IsWrittenSpace (name : String) (sorts : List (Option NamespaceItem → Prop))
    (decl : NamespaceDecl) : Prop where
  name : decl.name = name
  isFileScoped : decl.isFileScoped = false
  body : ∃ values, AreOf sorts values ∧
    NamespaceBody.mk decl.usings decl.members = values.foldl (addIfAny NamespaceBody.add) ⟨[], []⟩

/-- The methods in what a namespace holds are those in its items. -/
theorem NamespaceBody.methods_foldl_addIfAny (values : List (Option NamespaceItem))
    (body : NamespaceBody) :
    (values.foldl (addIfAny NamespaceBody.add) body).methods =
      body.methods ++ values.flatMap fun value => value.toList.flatMap NamespaceItem.methods := by
  induction values generalizing body with
  | nil => simp
  | cons value values ih =>
      rw [List.foldl_cons, ih, List.flatMap_cons, ← List.append_assoc]
      congr 1
      rcases value with - | (directive | member)
      · simp [addIfAny]
      · simp [addIfAny, NamespaceBody.add, NamespaceBody.methods, NamespaceItem.methods]
      · simp [addIfAny, NamespaceBody.add, NamespaceBody.methods, NamespaceItem.methods,
          NamespaceMember.methodsOfList_append]

/-- What holds bare items is bare. -/
private theorem NamespaceBody.bare_of_items {values : List (Option NamespaceItem)}
    (areBare : ∀ value ∈ values, GivesBareItem value) :
    ∀ method ∈ (values.foldl (addIfAny NamespaceBody.add) ⟨[], []⟩).methods,
      method.attributeLists = [] := by
  intro method member
  rw [NamespaceBody.methods_foldl_addIfAny] at member
  obtain ⟨value, isValue, isMethod⟩ := List.mem_flatMap.mp member
  exact areBare value isValue method isMethod

/-- The items of a namespace between braces are passed one by one. -/
private theorem spaceRest_of_items {depth : Nat}
    (areItems : List.Forall₂ (IsMember (namespaceItem (namespaceDeclWithin depth))) sorts items)
    (start : Span) (name : String) {opening closing : Token} {inner : List Token}
    (opens : opening.kind = .mark .leftBrace) (areKinds : inner.map (·.kind) = items.flatten)
    (closes : closing.kind = .mark .rightBrace)
    (ends : EndsDeclaration (rest.head?.map (·.kind))) :
    ∃ decl : NamespaceDecl, IsWrittenSpace name sorts decl ∧
      spaceRest start name (namespaceDeclWithin depth) file
          ⟨previous, opening :: (inner ++ closing :: rest), recorded⟩ =
        .ok decl ⟨some closing, rest, recorded⟩ := by
  have forward : Forward (namespaceItem (namespaceDeclWithin depth)) :=
    forward_namespaceItem (forward_namespaceDeclWithin depth)
  obtain ⟨values, areGiven, passed⟩ :=
    @memberLoop_of_members _ _ _ _ NamespaceBody.add stopsAtEnd_atBodyEnd forward
      atBodyEnd_of_next _ _ areItems ⟨[], []⟩ file (some opening) inner
        (closing :: rest) recorded areKinds
      (by simp [EndsDeclaration, closes])
  let body := values.foldl (addIfAny NamespaceBody.add) ⟨[], []⟩
  let later : Cursor := ⟨some closing, rest, recorded⟩
  have run : namespaceBody true (namespaceDeclWithin depth) file
      ⟨some opening, inner ++ closing :: rest, recorded⟩ =
        .ok body ⟨Token.lastOf (some opening) inner, closing :: rest, recorded⟩ :=
    passed.trans (memberLoop_of_stop stopsAtEnd_atBodyEnd forward
      (by simp [atBodyEnd_apply, closes]) _)
  have behind : later.peek? 0 ≠ some (.mark .semicolon) := by
    rw [Cursor.peek?, ← List.head?_eq_getElem?]
    exact ends
  refine ⟨⟨later.spanFrom start, name, false, body.usings, body.members⟩,
    ⟨rfl, rfl, values, areGiven, rfl⟩, ?_⟩
  unfold spaceRest
  rw [eat_bind_apply, if_neg (by simp [opens])]
  simp [bind_apply, expect_apply, opens, run, closeDeclaration, eat_apply, closes, later, behind,
    -bind_pure_comp]

/-- A namespace whose items are known one by one is an item of a namespace. -/
theorem isItem_namespace {name : String} {names : List String}
    (areItems : List.Forall₂ IsItem sorts items) :
    IsItem (fun value => ∃ decl, value = some (.member (.space decl)) ∧
      IsWrittenSpace (".".intercalate (name :: names)) sorts decl)
        (namespaceKinds name names items) := by
  refine fun depth enough => ⟨⟨.ident "namespace", rfl, nofun, nofun, nofun⟩, ?_⟩
  intro file previous tokens rest recorded areKinds ends
  obtain ⟨inner, rfl⟩ : ∃ inner, depth = inner + 1 := by
    refine Nat.exists_eq_succ_of_ne_zero ?_
    rintro rfl
    simp [namespaceKinds] at enough
  have areMembers :
      List.Forall₂ (IsMember (namespaceItem (namespaceDeclWithin inner))) sorts items := by
    refine areMembers_of_enough areItems ?_
    simp only [namespaceKinds, List.length_append, List.length_cons] at enough
    omega
  obtain ⟨keyword, behind, rfl, isKeyword, behindKinds⟩ := List.map_eq_cons_iff.mp areKinds
  obtain ⟨nameTokens, body, rfl, areName, bodyKinds⟩ := List.map_eq_append_iff.mp behindKinds
  obtain ⟨opening, body, rfl, opens, bodyKinds⟩ := List.map_eq_cons_iff.mp bodyKinds
  obtain ⟨within, last, rfl, areWithin, lastKind⟩ := List.map_eq_append_iff.mp bodyKinds
  obtain ⟨closing, rfl, closes⟩ := List.map_eq_singleton_iff.mp lastKind
  let cursor : Cursor :=
    ⟨previous, keyword :: (nameTokens ++ opening :: (within ++ closing :: rest)), recorded⟩
  obtain ⟨parts, rfl, named⟩ := passes_dottedName name names file (some keyword) nameTokens
    (opening :: (within ++ closing :: rest)) recorded areName (by simp [opens])
  obtain ⟨decl, written, run⟩ :=
    @spaceRest_of_items file (Token.lastOf (some keyword) nameTokens) rest
    recorded items sorts inner areMembers (cursor.nextSpan file)
      (".".intercalate (name :: names)) opening
    closing within opens areWithin closes ends
  have read : namespaceDeclWithin (inner + 1) (cursor.nextSpan file) file cursor =
      .ok decl ⟨some closing, rest, recorded⟩ := by
    rw [namespaceDeclWithin_eq]
    simp only [bind_apply, advance_apply, cursor, Cursor.advance_cons, named, run]
  have first : cursor.peek? 0 = some (.ident "namespace") := congrArg some isKeyword
  have lists : attributeLists file cursor = .ok [] cursor :=
    attributeLists_of_none file (by simp [first])
  have tokensAre : keyword :: (nameTokens ++ opening :: (within ++ [closing])) ++ rest =
      cursor.remaining := by
    simp [cursor]
  refine ⟨some (.member (.space decl)), ⟨decl, rfl, written⟩, ?_⟩
  rw [tokensAre]
  show namespaceItem (namespaceDeclWithin (inner + 1)) file cursor = _
  unfold namespaceItem
  simp [bind_apply, first, TokenKind.ident?, atUsingDirective, eat_apply, lists, read,
    Token.lastOf_append, -bind_pure_comp]

theorem closed_namespaceKinds {name : String} {names : List String}
    (closed : ∀ kinds ∈ items, TokenKind.openString ∉ kinds) :
    TokenKind.openString ∉ namespaceKinds name names items := by
  have inside := closed_flatten closed
  simp [namespaceKinds, (bracketed_dotKinds names).closed, inside]

/-- A namespace with bare items is a bare item. -/
theorem bareItem_namespace {name : String} {names : List String}
    (areItems : ∀ kinds ∈ items, BareItem kinds) :
    BareItem (namespaceKinds name names items) := by
  refine ⟨fun depth enough => ?_,
    closed_namespaceKinds fun kinds member => (areItems kinds member).closed⟩
  have areBare := forall₂_replicate fun kinds member => (areItems kinds member).passes
  refine (isItem_namespace areBare depth enough).mono ?_
  rintro value ⟨decl, rfl, written⟩
  obtain ⟨values, areOf, isBody⟩ := written.body
  have bare := NamespaceBody.bare_of_items areOf.of_replicate.2
  rw [← isBody] at bare
  obtain ⟨span, space, isFileScoped, usings, members⟩ := decl
  simpa [GivesBareItem, NamespaceItem.methods, NamespaceMember.methodsOfList, NamespaceBody.methods,
    NamespaceDecl.methods] using bare

end Namespaces

end Parser

/-- A text that writes bare items is parsed as a file in which no method has
attributes. -/
theorem SourceUnit.parse_of_bareItems {text : String} {items : List (List TokenKind)}
    (writes : Writes text.toList items.flatten)
    (areItems : ∀ kinds ∈ items, Parser.BareItem kinds) (path : String) :
    ∃ unit, SourceUnit.parse text path = .ok unit ∧
      ∀ method ∈ unit.methods, method.attributeLists = [] := by
  obtain ⟨values, -, areBare, body, rfl, span, run⟩ := SourceUnit.parse_of_items writes
    (fun kinds member => (areItems kinds member).passes)
    (Parser.closed_flatten fun kinds member => (areItems kinds member).closed) path
  exact ⟨_, run, Parser.NamespaceBody.bare_of_items areBare⟩

end ErrorAccessors
