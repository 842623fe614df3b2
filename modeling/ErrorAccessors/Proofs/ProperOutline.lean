/-
# What an outline is built from

Every type declaration in the outline of a text is named by a word, its methods are
proper, and it stands in a proper scope: the namespace is a dotted name, the types
around it are named by words, and all directives in sight are proper.

Nothing is said here about faults.  A text that has an outline is one whose
faults were all recovered from, and the declarations read before and behind a
fault are described alike.
-/

import ErrorAccessors.Proofs.DottedName
import ErrorAccessors.Proofs.ProperParts
import ErrorAccessors.Scope

namespace ErrorAccessors

/-- A scope whose namespace and types around are named by words. -/
structure Scope.IsProper (scope : Scope) : Prop where
  space : scope.space ≠ "" → ∃ first others, IsDottedName scope.space first others
  containers : ∀ name ∈ scope.containers, Lexeme.IsWord name.toList
  usings : ∀ directive ∈ scope.usings, directive.IsProper

/-- A type declaration that is named by a word, with proper methods, in a proper
scope. -/
structure ScopedType.IsProper (type : ScopedType) : Prop where
  name : Lexeme.IsWord type.decl.name.toList
  methods : ∀ method ∈ type.decl.ownMethods, method.IsProper
  scope : type.scope.IsProper

/-- A type declaration for which that holds in every proper scope, also of the types nested
in it. -/
def TypeDecl.IsProper (decl : TypeDecl) : Prop :=
  ∀ scope : Scope, scope.IsProper → ∀ type ∈ decl.scoped scope, type.IsProper

/-- A proper member of a type. -/
def TypeMember.IsProper : TypeMember → Prop
  | .type decl => decl.IsProper
  | .method decl => decl.IsProper

/-- A namespace that declares only such types. -/
def NamespaceDecl.IsProper (decl : NamespaceDecl) : Prop :=
  ∀ scope : Scope, scope.IsProper → ∀ type ∈ decl.scoped scope, type.IsProper

/-- A proper member of a namespace. -/
def NamespaceMember.IsProper : NamespaceMember → Prop
  | .space decl => decl.IsProper
  | .type decl => decl.IsProper

section Scopes

variable {scope : Scope}

theorem IsDottedName.ne_empty {name first : String} {others : List String}
    (isName : IsDottedName name first others) : name ≠ "" := by
  have nonempty := (isName.words first List.mem_cons_self).ne_empty
  rw [isName.isName]
  cases others with
  | nil => simpa using nonempty
  | cons second others => simp [String.intercalate_cons_cons]

/-- The parts of two dotted names make one. -/
private theorem IsDottedName.append {name more first second : String} {others further : List String}
    (isName : IsDottedName name first others) (isMore : IsDottedName more second further) :
    IsDottedName (name ++ "." ++ more) first (others ++ second :: further) := by
  refine ⟨?_, ?_⟩
  · rw [isName.isName, isMore.isName, ← List.cons_append,
      String.intercalate_append_of_ne_nil (List.cons_ne_nil _ _) (List.cons_ne_nil _ _)]
  · rw [← List.cons_append]
    exact List.forall_mem_append.mpr ⟨isName.words, isMore.words⟩

theorem Scope.IsProper.enterType (proper : scope.IsProper) {name : String}
    (isWord : Lexeme.IsWord name.toList) (typeParameters : List String) :
    (scope.enterType name typeParameters).IsProper :=
  ⟨proper.space,
    List.forall_mem_append.mpr ⟨proper.containers, List.forall_mem_singleton.mpr isWord⟩,
    proper.usings⟩

private theorem mem_addNew {directives more : List UsingDirective} {directive : UsingDirective}
    (member : directive ∈ UsingDirective.addNew directives more) :
    directive ∈ directives ∨ directive ∈ more := by
  unfold UsingDirective.addNew at member
  induction more generalizing directives with
  | nil => exact .inl member
  | cons next more ih =>
      rw [List.foldl_cons] at member
      rcases ih member with known | later
      · split at known
        · exact .inl known
        · rcases List.mem_append.mp known with held | new
          · exact .inl held
          · exact .inr (List.mem_singleton.mp new ▸ List.mem_cons_self)
      · exact .inr (List.mem_cons_of_mem _ later)

theorem Scope.IsProper.enterNamespace (proper : scope.IsProper) {name first : String}
    {others : List String} (isName : IsDottedName name first others) {usings : List UsingDirective}
    (areProper : ∀ directive ∈ usings, directive.IsProper) :
    (scope.enterNamespace name usings).IsProper := by
  refine ⟨fun _ => ?_, proper.containers, fun directive member => ?_⟩
  · show ∃ first others, IsDottedName (Text.joinDotted ([scope.space] ++ [name])) first others
    have alone : Text.joinDotted [scope.space] = scope.space := by
      by_cases outside : scope.space = "" <;> simp [Text.joinDotted, outside]
    rw [Text.joinDotted_append_singleton, if_neg isName.ne_empty, alone]
    by_cases outside : scope.space = ""
    · rw [if_pos outside]
      exact ⟨first, others, isName⟩
    · obtain ⟨outer, around, isSpace⟩ := proper.space outside
      rw [if_neg outside]
      exact ⟨outer, _, isSpace.append isName⟩
  · rcases mem_addNew member with known | new
    · exact proper.usings directive known
    · exact areProper directive new

end Scopes

theorem TypeMember.isProper_of_mem_scoped {members : List TypeMember}
    (proper : ∀ member ∈ members, member.IsProper) {scope : Scope} (isScope : scope.IsProper) :
    ∀ type ∈ TypeMember.scopedOfList scope members, type.IsProper := by
  induction members with
  | nil => exact nofun
  | cons member rest ih =>
      obtain ⟨first, later⟩ := List.forall_mem_cons.mp proper
      cases member with
      | method decl => exact ih later
      | type decl =>
          rw [TypeMember.scopedOfList]
          exact List.forall_mem_append.mpr ⟨first scope isScope, ih later⟩

theorem NamespaceMember.isProper_of_mem_scoped {members : List NamespaceMember}
    (proper : ∀ member ∈ members, member.IsProper) {scope : Scope} (isScope : scope.IsProper) :
    ∀ type ∈ NamespaceMember.scopedOfList scope members, type.IsProper := by
  induction members with
  | nil => exact nofun
  | cons member rest ih =>
      obtain ⟨first, later⟩ := List.forall_mem_cons.mp proper
      cases member with
      | space decl =>
          rw [NamespaceMember.scopedOfList]
          exact List.forall_mem_append.mpr ⟨first scope isScope, ih later⟩
      | type decl =>
          rw [NamespaceMember.scopedOfList]
          exact List.forall_mem_append.mpr ⟨first scope isScope, ih later⟩

/-- A declaration is proper if its name is a word and its members are proper. -/
theorem TypeDecl.isProper_mk {span nameSpan : Span} {kind : TypeKind} {name : String}
    {typeParameters : List String} {attributeLists : List AttributeList}
    {modifiers : List Modifier} {members : List TypeMember}
    (isWord : Lexeme.IsWord name.toList) (proper : ∀ member ∈ members, member.IsProper) :
    (TypeDecl.mk span kind name nameSpan typeParameters attributeLists modifiers
      members).IsProper := by
  intro scope isScope
  rw [TypeDecl.scoped]
  refine List.forall_mem_cons.mpr ⟨⟨isWord, fun method own => ?_, isScope⟩,
    TypeMember.isProper_of_mem_scoped proper (isScope.enterType isWord typeParameters)⟩
  obtain ⟨member, inMembers, isOwn⟩ := List.mem_filterMap.mp own
  cases member with
  | type decl => cases isOwn
  | method decl =>
      cases isOwn
      exact proper _ inMembers

namespace Parser

section Declarations

variable {nested : Span → List AttributeList → List Modifier → Parser TypeDecl}

theorem gives_typeMember (reads : ∀ start lists words,
      Gives TypeDecl.IsProper (nested start lists words)) :
    Gives (fun found => ∀ member, found = some member → member.IsProper) (typeMember nested) := by
  refine .behind_look nextSpan_apply fun start => .behind (forward_eat .semicolon) fun _ => ?_
  refine .ite (gives_none) (.behind forward_attributeLists fun lists => ?_)
  refine .behind forward_modifiers fun words => .behind_look atTypeKeyword_apply fun _ => ?_
  refine .ite ((reads start lists words).bind fun decl proper => gives_some proper) ?_
  refine .behind_look atSkippedMember_apply fun _ => ?_
  refine .ite (.behind forward_skipMember fun _ => gives_none) ?_
  refine (gives_method? start lists words).bind fun found proper => gives_pure ?_
  rintro member isMember
  obtain ⟨decl, isFound, rfl⟩ := Option.map_eq_some_iff.mp isMember
  exact proper decl isFound

theorem gives_typeBody (kind : TypeKind) (start : Span) {member : Parser (Option TypeMember)}
    (reads : Gives (fun found => ∀ value, found = some value → value.IsProper) member) :
    Gives (fun members => ∀ member ∈ members, member.IsProper) (typeBody kind start member) := by
  have ends {members : List TypeMember} (proper : ∀ member ∈ members, member.IsProper) :
      Gives (fun members => ∀ member ∈ members, member.IsProper)
        (eat .semicolon >>= fun _ => (pure members : Parser (List TypeMember))) :=
    .behind (forward_eat .semicolon) fun _ => gives_pure proper
  have adds (members : List TypeMember) (value : TypeMember)
      (proper : ∀ member ∈ members, member.IsProper) (also : value.IsProper) :
      ∀ member ∈ members ++ [value], member.IsProper :=
    List.forall_mem_append.mpr ⟨proper, List.forall_mem_singleton.mpr also⟩
  have none : ∀ member ∈ ([] : List TypeMember), member.IsProper := List.forall_mem_nil _
  have skips : Gives (fun members => ∀ member ∈ members, member.IsProper)
      (skipBalanced >>= fun _ => (pure [] : Parser (List TypeMember)) >>= fun members =>
        eat .semicolon >>= fun _ => pure members) :=
    .behind forward_skipBalanced fun _ => (gives_pure none).bind fun _ => ends
  refine .behind (forward_eat .semicolon) fun _ => .ite (gives_pure none) (.ite ?_ ?_)
  · exact .behind_look (fun file cursor => atMark_apply file cursor _) fun _ =>
      .ite skips (.behind (forward_failExpecting _) fun _ => skips)
  · refine .behind (forward_expect .leftBrace) fun _ => ?_
    refine (gives_memberLoop stopsAtEnd_atBodyEnd reads adds none).bind fun members proper => ?_
    exact .behind (forward_closeDeclaration start) fun _ => (gives_pure proper).bind fun _ => ends

/-- Every type declaration that is read is proper. -/
theorem gives_typeDeclWithin (depth : Nat) (start : Span) (lists : List AttributeList)
    (words : List Modifier) : Gives TypeDecl.IsProper (typeDeclWithin depth start lists words) := by
  induction depth generalizing start lists words with
  | zero => exact gives_failExpecting _
  | succ depth ih =>
      refine .behind forward_typeKind fun kind =>
        gives_expectIdent.bind fun ⟨name, span⟩ isWord => ?_
      refine .behind forward_typeHead fun parameters => ?_
      refine (gives_typeBody kind start (gives_typeMember ih)).bind fun members proper => ?_
      exact .behind_look (fun file cursor => spanFrom_apply file cursor _) fun _ =>
        gives_pure (TypeDecl.isProper_mk isWord proper)

theorem forward_dottedName : Forward dottedName := by
  have repeats : Repeats dottedName dottedName id := repeats_dottedName
  exact repeats.forward

theorem forward_usingDirective (start : Span) (isGlobal : Bool) :
    Forward (usingDirective start isGlobal) := by
  have ends (kind : UsingKind) : Forward (pure kind >>= fun kind => expect .semicolon >>= fun _ =>
      spanFrom start >>= fun span => (pure ⟨span, isGlobal, kind⟩ : Parser UsingDirective)) :=
    (forward_pure kind).bind fun kind => (forward_expect _).bind fun _ =>
      Forward.behind_look (fun file cursor => spanFrom_apply file cursor _) fun _ => forward_pure _
  refine (forward_eatWord _).bind fun _ => .ite ?_ ((forward_failExpecting _).bind fun _ => ?_)
  all_goals
    refine (forward_eatWord _).bind fun _ => Forward.behind_look atIdent_apply fun _ => ?_
    refine Forward.behind_look (fun file cursor => secondIsMark_apply file cursor _) fun _ => ?_
    refine .ite (forward_type.bind fun _ => ends _) (.ite ?_ ?_)
    · exact forward_expectIdent.bind fun _ => forward_advance.bind fun _ =>
        forward_type.bind fun _ => ends _
    · exact (forward_dottedName.bind fun _ => forward_pure _).bind fun _ => ends _

/-- A proper item of a namespace. -/
def NamespaceItem.IsProper : NamespaceItem → Prop
  | .directive read => read.IsProper
  | .member added => added.IsProper

/-- What a namespace holds is proper. -/
structure NamespaceBody.IsProper (body : NamespaceBody) : Prop where
  usings : ∀ directive ∈ body.usings, directive.IsProper
  members : ∀ member ∈ body.members, member.IsProper

theorem atUsingDirective_apply (file : SourceFile) (cursor : Cursor) :
    atUsingDirective file cursor =
      .ok ((cursor.peek? 0).bind TokenKind.ident? == some "using" &&
        !(cursor.peek? 1 == some (.mark .leftParen)) &&
        !((cursor.peek? 1).any fun kind => kind.isWord "var")) cursor := rfl

variable {inner : Span → Parser NamespaceDecl}

theorem gives_namespaceItem (reads : ∀ start, Gives NamespaceDecl.IsProper (inner start)) :
    Gives (fun found => ∀ item, found = some item → NamespaceItem.IsProper item)
      (namespaceItem inner) := by
  have added (directive : UsingDirective) (proper : directive.IsProper) :
      Gives (fun found => ∀ item, found = some item → NamespaceItem.IsProper item)
        (pure (some (.directive directive)) : Parser (Option NamespaceItem)) :=
    gives_some proper
  have isGlobal (start : Span) : Gives UsingDirective.IsProper (usingDirective start true) :=
    (forward_usingDirective start true).gives fun _ _ _ _ words =>
      isProper_of_usingDirective words nofun
  refine .behind_look nextSpan_apply fun start => ?_
  refine .behind_look (fun file cursor => atWord_apply file cursor _) fun _ => ?_
  refine .behind_look peekSecond_apply fun _ => ?_
  refine .ite (.behind forward_advance fun _ => (isGlobal start).bind added) ?_
  refine .behind_guard atUsingDirective_apply
    ((forward_usingDirective start false).bind fun _ => forward_pure _) ?_ ?_
  · intro file cursor later found isSeen words run
    rw [bind_apply] at run
    cases read : usingDirective start false file cursor with
    | error diagnostic reached => simp [read] at run
    | ok directive reached =>
        simp only [read, pure_apply] at run
        cases run
        rintro item ⟨⟩
        refine isProper_of_usingDirective words (fun _ next => ?_) read
        simp [next, TokenKind.isWord, TokenKind.ident?] at isSeen
  refine .behind (forward_eat .semicolon) fun _ => .ite (gives_none) ?_
  refine .behind forward_attributeLists fun lists => ?_
  refine .behind_look (fun file cursor => atWord_apply file cursor _) fun _ => ?_
  refine .ite ((reads start).bind fun decl proper => gives_some proper) ?_
  refine .behind forward_modifiers fun words => .behind_look atTypeKeyword_apply fun _ => ?_
  refine .ite (.behind_look get_apply fun before => ?_)
    (.behind forward_skipMember fun _ => gives_none)
  exact (gives_typeDeclWithin _ start lists words).bind fun decl proper => gives_some proper

theorem forward_skipStrayBrace : Forward skipStrayBrace := by
  refine Forward.behind_look (fun file cursor => atMark_apply file cursor _) fun _ => ?_
  refine .ite ?_ (forward_pure _)
  intro file cursor
  rw [bind_apply, unexpected_apply]
  have reported := forward_record (cursor.isError_unexpected file "declaration")
  exact (reported.bind fun _ => forward_advance.bind fun _ => forward_pure true) file cursor

theorem stopsAtEnd_atEnd : StopsAtEnd atEnd := by
  refine fun file cursor => ⟨_, rfl, fun ended => ?_⟩
  simp [ended]

theorem forward_namespaceItem (forward : ∀ start, Forward (inner start)) :
    Forward (namespaceItem inner) := by
  refine Forward.behind_look nextSpan_apply fun start => ?_
  refine Forward.behind_look (fun file cursor => atWord_apply file cursor _) fun _ => ?_
  refine Forward.behind_look peekSecond_apply fun _ => .ite ?_ ?_
  · exact forward_advance.bind fun _ => (forward_usingDirective start true).bind fun _ =>
      forward_pure _
  refine Forward.behind_look atUsingDirective_apply fun _ => .ite ?_ ?_
  · exact (forward_usingDirective start false).bind fun _ => forward_pure _
  refine (forward_eat .semicolon).bind fun _ => .ite (forward_pure _) ?_
  refine forward_attributeLists.bind fun lists => ?_
  refine Forward.behind_look (fun file cursor => atWord_apply file cursor _) fun _ => .ite ?_ ?_
  · exact (forward start).bind fun _ => forward_pure _
  refine forward_modifiers.bind fun words => Forward.behind_look atTypeKeyword_apply fun _ => ?_
  refine .ite (Forward.behind_look get_apply fun _ => ?_)
    (forward_skipMember.bind fun _ => forward_pure _)
  exact (forward_typeDeclWithin _ start lists words).bind fun _ => forward_pure _

/-- An item outside of braces, in front of which a stray brace may stand. -/
def openItem (inner : Span → Parser NamespaceDecl) : Parser (Option NamespaceItem) := do
  if ← skipStrayBrace then return none else namespaceItem inner

theorem forward_openItem (forward : ∀ start, Forward (inner start)) :
    Forward (openItem inner) :=
  forward_skipStrayBrace.bind fun _ => .ite (forward_pure _) (forward_namespaceItem forward)

theorem forward_namespaceBody (isBraced : Bool) (forward : ∀ start, Forward (inner start)) :
    Forward (namespaceBody isBraced inner) :=
  .ite (forward_memberLoop stopsAtEnd_atBodyEnd (forward_namespaceItem forward) _)
    (forward_memberLoop stopsAtEnd_atEnd (forward_openItem forward) _)

/-- The rest of a namespace behind its name. -/
def spaceRest (start : Span) (name : String) (inner : Span → Parser NamespaceDecl) :
    Parser NamespaceDecl := do
  if ← eat .semicolon then
    let body ← namespaceBody false inner
    return ⟨← spanFrom start, name, true, body.usings, body.members⟩
  else
    expect .leftBrace
    let body ← namespaceBody true inner
    closeDeclaration start
    let _ ← eat .semicolon
    return ⟨← spanFrom start, name, false, body.usings, body.members⟩

theorem namespaceDeclWithin_eq (depth : Nat) (start : Span) :
    namespaceDeclWithin (depth + 1) start = (do
      advance
      let parts ← dottedName
      spaceRest start (".".intercalate parts) (namespaceDeclWithin depth)) := by
  simp only [namespaceDeclWithin, spaceRest, qualifiedName, bind_assoc, pure_bind]

theorem forward_spaceRest (start : Span) (name : String)
    (forward : ∀ start, Forward (inner start)) : Forward (spaceRest start name inner) := by
  have ends (decl : Span → NamespaceDecl) :
      Forward (spanFrom start >>= fun span => (pure (decl span) : Parser NamespaceDecl)) :=
    Forward.behind_look (fun file cursor => spanFrom_apply file cursor _) fun _ => forward_pure _
  refine (forward_eat .semicolon).bind fun _ => .ite ?_ ?_
  · exact (forward_namespaceBody false forward).bind fun body => ends _
  · exact (forward_expect .leftBrace).bind fun _ => (forward_namespaceBody true forward).bind
      fun body => (forward_closeDeclaration start).bind fun _ =>
        (forward_eat .semicolon).bind fun _ => ends _

theorem forward_namespaceDeclWithin (depth : Nat) (start : Span) :
    Forward (namespaceDeclWithin depth start) := by
  induction depth generalizing start with
  | zero => exact forward_failExpecting _
  | succ depth ih =>
      rw [namespaceDeclWithin_eq]
      exact forward_advance.bind fun _ => forward_dottedName.bind fun _ =>
        forward_spaceRest start _ ih

theorem fileBody_apply (file : SourceFile) (cursor : Cursor) :
    fileBody file cursor =
      namespaceBody false (namespaceDeclWithin (cursor.remaining.length + 1)) file cursor := by
  simp only [fileBody, bind_apply, get_apply]

theorem forward_fileBody : Forward fileBody := by
  intro file cursor
  rw [fileBody_apply]
  exact forward_namespaceBody false (forward_namespaceDeclWithin _) file cursor

/-- What a namespace body holds is proper if the namespaces in it are. -/
theorem gives_namespaceBody (isBraced : Bool)
    (reads : ∀ start, Gives NamespaceDecl.IsProper (inner start)) :
    Gives NamespaceBody.IsProper (namespaceBody isBraced inner) := by
  have adds (body : NamespaceBody) (item : NamespaceItem) (proper : body.IsProper)
      (also : NamespaceItem.IsProper item) : (body.add item).IsProper := by
    cases item with
    | directive directive =>
        exact ⟨List.forall_mem_append.mpr ⟨proper.usings, List.forall_mem_singleton.mpr also⟩,
          proper.members⟩
    | member member =>
        exact ⟨proper.usings,
          List.forall_mem_append.mpr ⟨proper.members, List.forall_mem_singleton.mpr also⟩⟩
  have none : (NamespaceBody.mk [] []).IsProper := ⟨List.forall_mem_nil _, List.forall_mem_nil _⟩
  refine .ite (gives_memberLoop stopsAtEnd_atBodyEnd (gives_namespaceItem reads) adds none) ?_
  refine gives_memberLoop stopsAtEnd_atEnd ?_ adds none
  exact .behind forward_skipStrayBrace fun _ =>
    .ite (gives_none) (gives_namespaceItem reads)

/-- Every namespace that is read declares only proper types. -/
theorem gives_namespaceDeclWithin (depth : Nat) (start : Span) :
    Gives NamespaceDecl.IsProper (namespaceDeclWithin depth start) := by
  induction depth generalizing start with
  | zero => exact gives_failExpecting _
  | succ depth ih =>
      have dotted :
          Gives (fun parts => ∃ first others, IsDottedName (".".intercalate parts) first others)
          dottedName := by
        refine forward_dottedName.gives fun file cursor later parts words run => ?_
        obtain ⟨first, others, isName, -⟩ := parts_of_dottedName words run
        exact ⟨first, others, isName⟩
      have ends {isFileScoped : Bool} {name first : String} {others : List String}
          (isName : IsDottedName name first others) {body : NamespaceBody}
          (proper : body.IsProper) :
          Gives NamespaceDecl.IsProper (spanFrom start >>= fun span =>
            (pure ⟨span, name, isFileScoped, body.usings, body.members⟩ :
              Parser NamespaceDecl)) := by
        refine .behind_look (fun file cursor => spanFrom_apply file cursor _) fun span => ?_
        refine gives_pure fun scope isScope => ?_
        rw [NamespaceDecl.scoped]
        exact NamespaceMember.isProper_of_mem_scoped proper.members
          (isScope.enterNamespace isName proper.usings)
      rw [namespaceDeclWithin_eq]
      refine .behind forward_advance fun _ => dotted.bind fun parts isDotted => ?_
      obtain ⟨first, others, isName⟩ := isDotted
      refine .behind (forward_eat .semicolon) fun _ => .ite ?_ ?_
      · exact (gives_namespaceBody false ih).bind fun body proper => ends isName proper
      · refine .behind (forward_expect .leftBrace) fun _ => ?_
        refine (gives_namespaceBody true ih).bind fun body proper => ?_
        exact .behind (forward_closeDeclaration start) fun _ =>
          .behind (forward_eat .semicolon) fun _ => ends isName proper

end Declarations

end Parser

/-- Every type declaration in the outline of a text is proper. -/
theorem SourceUnit.isProper_of_parse {text path : String} {unit : SourceUnit}
    (parsed : SourceUnit.parse text path = .ok unit) : ∀ type ∈ unit.types, type.IsProper := by
  have whole : Parser.Gives Parser.NamespaceBody.IsProper Parser.fileBody :=
    .behind_look Parser.get_apply fun _ =>
      Parser.gives_namespaceBody false (Parser.gives_namespaceDeclWithin _)
  generalize isFile : SourceFile.ofText path text = file
  simp only [SourceUnit.parse, SourceFile.outline, SourceFile.outlineOf, isFile] at parsed
  have read := whole file { Cursor.start (Token.tokens file) with
    recorded := Parser.openStrings (Token.tokens file) } (Token.areWords_tokens file)
  split at parsed
  · next body cursor run =>
    rw [run] at read
    split at parsed
    · cases parsed
    · cases parsed
      exact NamespaceMember.isProper_of_mem_scoped read.1.members
        ⟨absurd rfl, List.forall_mem_nil _, read.1.usings⟩
  · cases parsed

end ErrorAccessors
