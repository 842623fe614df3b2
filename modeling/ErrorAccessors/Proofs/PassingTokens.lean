/-
# Passing tokens of known kinds

What a reader does on tokens whose kinds are known: it passes just these tokens,
records nothing, and gives a value of a known sort, wherever they stand in front of
something that does not continue them.  A semicolon behind a declaration belongs to
it, so what is said about declarations is about tokens in front of anything else.

The members of a type and the items of a namespace are passed one by one.  From
the stretches of its members a declaration is put together, and from its items a
whole file.
-/

import ErrorAccessors.Proofs.ExchangedOutline
import Mathlib.Data.List.Forall2

namespace ErrorAccessors

namespace Parser

variable {α σ : Type} {gives : α → Prop}

/-- In front of tokens of certain kinds, or of the end, the parser passes just the
tokens of some kinds, records nothing and gives a value of a certain sort. -/
def Passes (parser : Parser α) (ends : Option TokenKind → Prop) (kinds : List TokenKind)
    (gives : α → Prop) : Prop :=
  ∀ (file : SourceFile) (previous : Option Token) (tokens rest : List Token)
    (recorded : List Diagnostic), tokens.map (·.kind) = kinds → ends (rest.head?.map (·.kind)) →
      ∃ value, gives value ∧
        parser file ⟨previous, tokens ++ rest, recorded⟩ =
          .ok value ⟨Token.lastOf previous tokens, rest, recorded⟩

/-- What ends a declaration: anything but a semicolon, which belongs to it. -/
def EndsDeclaration (next : Option TokenKind) : Prop :=
  next ≠ some (.mark .semicolon)

section Members

/-- Tokens of some kinds begin as a member does and are passed as one. -/
structure IsMember (reader : Parser (Option α)) (gives : Option α → Prop)
    (kinds : List TokenKind) : Prop where
  begins : ∃ kind, kinds.head? = some kind ∧ kind ≠ .mark .rightBrace ∧ kind ≠ .mark .semicolon ∧
    ∀ spelling, kind ≠ .fault spelling
  passes : Passes reader EndsDeclaration kinds gives

theorem IsMember.ne_nil {reader : Parser (Option α)} {gives : Option α → Prop}
    {kinds : List TokenKind} (isMember : IsMember reader gives kinds) : kinds ≠ [] := by
  obtain ⟨kind, head, -⟩ := isMember.begins
  rintro rfl
  cases head

variable {atStop : Parser Bool} {reader : Parser (Option α)} {add : σ → α → σ}
  {gives : Option α → Prop}

/-- What is read of a member is of every sort that it has to be of. -/
theorem IsMember.mono {others : Option α → Prop} {kinds : List TokenKind}
    (isMember : IsMember reader gives kinds) (weaker : ∀ value, gives value → others value) :
    IsMember reader others kinds := by
  refine ⟨isMember.begins, fun file previous tokens rest recorded areKinds ends => ?_⟩
  obtain ⟨value, given, run⟩ := isMember.passes file previous tokens rest recorded areKinds ends
  exact ⟨value, weaker value given, run⟩

/-- Values of certain sorts, one of each. -/
def AreOf (sorts : List (α → Prop)) (values : List α) : Prop :=
  List.Forall₂ (fun gives value => gives value) sorts values

/-- If all sorts are the same, all values are of it. -/
theorem AreOf.of_replicate {gives : α → Prop} {count : Nat} {values : List α}
    (areOf : AreOf (List.replicate count gives) values) :
    values.length = count ∧ ∀ value ∈ values, gives value := by
  induction count generalizing values with
  | zero =>
      cases areOf
      exact ⟨rfl, List.forall_mem_nil _⟩
  | succ count ih =>
      obtain - | ⟨given, later⟩ := areOf
      obtain ⟨sameLength, areGiven⟩ := ih later
      exact ⟨congrArg (· + 1) sameLength, List.forall_mem_cons.mpr ⟨given, areGiven⟩⟩

/-- What holds of all members holds of them with sorts that are all the same. -/
theorem forall₂_replicate {isMember : (α → Prop) → List TokenKind → Prop} {gives : α → Prop}
    {members : List (List TokenKind)} (areMembers : ∀ kinds ∈ members, isMember gives kinds) :
    List.Forall₂ isMember (List.replicate members.length gives) members := by
  induction members with
  | nil => exact .nil
  | cons kinds members ih =>
      obtain ⟨first, later⟩ := List.forall_mem_cons.mp areMembers
      exact .cons first (ih later)

/-- What follows from being related holds of all that is related. -/
theorem forall_mem_of_forall₂ {β γ : Type} {related : β → γ → Prop} {holds : γ → Prop}
    {left : List β}
    {right : List γ} (areRelated : List.Forall₂ related left right)
    (follows : ∀ first second, related first second → holds second) :
    ∀ second ∈ right, holds second := by
  induction areRelated with
  | nil => exact List.forall_mem_nil _
  | cons first _ ih => exact List.forall_mem_cons.mpr ⟨follows _ _ first, ih⟩

/-- Members that are passed from a certain depth on are passed from a depth for all of them. -/
theorem areMembers_of_enough {reader : Nat → Parser (Option α)} {sorts : List (Option α → Prop)}
    {members : List (List TokenKind)} {depth : Nat}
    (areMembers : List.Forall₂ (fun gives kinds => ∀ depth, kinds.length ≤ depth →
      IsMember (reader depth) gives kinds) sorts members)
    (enough : members.flatten.length ≤ depth) :
    List.Forall₂ (IsMember (reader depth)) sorts members := by
  induction areMembers with
  | nil => exact .nil
  | cons first _ ih =>
      simp only [List.flatten_cons, List.length_append] at enough
      exact .cons (first depth (by omega)) (ih (by omega))

/-- A loop over members passes them one by one. -/
theorem memberLoop_of_members (stops : StopsAtEnd atStop) (forward : Forward reader)
    (goesOn : ∀ file (cursor : Cursor) kind, cursor.peek? 0 = some kind →
      kind ≠ .mark .rightBrace → atStop file cursor = .ok false cursor)
    {sorts : List (Option α → Prop)} {members : List (List TokenKind)}
    (areMembers : List.Forall₂ (IsMember reader) sorts members)
    (state : σ) (file : SourceFile) (previous : Option Token) {tokens rest : List Token}
    (recorded : List Diagnostic) (areKinds : tokens.map (·.kind) = members.flatten)
    (ends : EndsDeclaration (rest.head?.map (·.kind))) :
    ∃ values : List (Option α), AreOf sorts values ∧
      memberLoop atStop reader add state file ⟨previous, tokens ++ rest, recorded⟩ =
        memberLoop atStop reader add (values.foldl (addIfAny add) state) file
          ⟨Token.lastOf previous tokens, rest, recorded⟩ := by
  induction areMembers generalizing state previous tokens with
  | nil =>
      obtain rfl : tokens = [] := by simpa using areKinds
      exact ⟨[], .nil, rfl⟩
  | @cons _ kinds _ members first later ih =>
      rw [List.flatten_cons] at areKinds
      obtain ⟨own, others, rfl, ownKinds, otherKinds⟩ := List.map_eq_append_iff.mp areKinds
      obtain ⟨kind, head, noBrace, -, noFault⟩ := first.begins
      have next : (Cursor.mk previous (own ++ (others ++ rest)) recorded).peek? 0 = some kind := by
        apply Cursor.peek?_of_head
        rw [← List.head?_map, ownKinds, head]
      have behind : EndsDeclaration ((others ++ rest).head?.map (·.kind)) := by
        cases later with
        | nil =>
            obtain rfl : others = [] := by simpa using otherKinds
            exact ends
        | cons next later =>
            obtain ⟨kind, head, -, other, -⟩ := next.begins
            have headIs : (others ++ rest).head?.map (·.kind) = some kind := by
              rw [← List.head?_map, List.map_append, otherKinds, List.flatten_cons,
                List.append_assoc, List.head?_append, head]
              rfl
            rw [headIs]
            exact fun same => other (Option.some.inj same)
      obtain ⟨value, given, run⟩ :=
        first.passes file previous own (others ++ rest) recorded ownKinds behind
      have nonempty : own ≠ [] := by
        rintro rfl
        exact first.ne_nil ownKinds.symm
      have fewer : (others ++ rest).length < (own ++ (others ++ rest)).length := by
        have := List.length_pos_iff.mpr nonempty
        simp only [List.length_append]
        omega
      have isFirst := @memberLoop_of_read _ _ _ _ add stops forward _ _ _ _
        (goesOn file _ kind next noBrace)
        (fun spelling same => noFault spelling (Option.some.inj (next.symm.trans same))) run fewer
        state
      obtain ⟨values, areGiven, runs⟩ :=
        ih (addIfAny add state value) (Token.lastOf previous own) otherKinds
      refine ⟨value :: values, .cons given areGiven, ?_⟩
      rw [List.append_assoc, isFirst, runs, Token.lastOf_append]
      rfl

/-- A loop over members ends where it is to stop. -/
theorem memberLoop_of_stop (stops : StopsAtEnd atStop) (forward : Forward reader)
    {file : SourceFile} {cursor : Cursor} (stop : atStop file cursor = .ok true cursor)
    (state : σ) :
    memberLoop atStop reader add state file cursor = .ok state cursor := by
  refine loop_of_done file (progresses_memberRound stops forward) ?_
  show memberRound atStop reader add state file cursor = _
  rw [memberRound_eq, bind_apply, stop]
  rfl

/-- The members that are added behind each other are those that were read. -/
theorem foldl_addIfAny (values : List (Option α)) (found : List α) :
    values.foldl (addIfAny fun found member => found ++ [member]) found =
      found ++ values.filterMap id := by
  induction values generalizing found with
  | nil => simp
  | cons value values ih =>
      rw [List.foldl_cons, ih]
      cases value <;> simp [addIfAny]

/-- In front of anything but a closing brace a body goes on. -/
theorem atBodyEnd_of_next (file : SourceFile) (cursor : Cursor) (kind : TokenKind)
    (next : cursor.peek? 0 = some kind) (noBrace : kind ≠ .mark .rightBrace) :
    atBodyEnd file cursor = .ok false cursor := by
  obtain ⟨token, -, remaining⟩ := Cursor.remaining_eq_cons next
  simp [atBodyEnd_apply, next, noBrace, remaining]

end Members

section Types

/-- A type of the language has nothing between its name and its opening brace. -/
private theorem typeHead_of_brace (file : SourceFile) {cursor : Cursor}
    (next : cursor.peek? 0 = some (.mark .leftBrace)) : typeHead file cursor = .ok [] cursor := by
  have noSkipping :
      skipUntil [.leftBrace, .semicolon, .rightBrace] file cursor = .ok () cursor := by
    rw [skipUntil_eq]
    exact skipBy_of_stop file next rfl
  simp [typeHead, bind_apply, next, noSkipping, -bind_pure_comp]

variable {gives : Option TypeMember → Prop} {sorts : List (Option TypeMember → Prop)}
  {members : List (List TokenKind)}

/-- Tokens of some kinds are passed as a member of a type, however deep a type in it
may nest. -/
def IsTypeMember (gives : Option TypeMember → Prop) (kinds : List TokenKind) : Prop :=
  ∀ depth, kinds.length ≤ depth → IsMember (typeMember (typeDeclWithin depth)) gives kinds

/-- The tokens of a class from its keyword on. -/
def bareClassKinds (name : String) (members : List (List TokenKind)) : List TokenKind :=
  .ident "class" :: .ident name :: .mark .leftBrace :: (members.flatten ++ [.mark .rightBrace])

/-- The tokens of a class with some modifiers. -/
def classKinds (words : List String) (name : String) (members : List (List TokenKind)) :
    List TokenKind :=
  words.map .ident ++ bareClassKinds name members

/-- A class with certain modifiers and with members of certain sorts, as it was written. -/
structure IsWrittenClass (words : List String) (name : String)
    (sorts : List (Option TypeMember → Prop)) (decl : TypeDecl) : Prop where
  kind : decl.kind = .classType
  name : decl.name = name
  typeParameters : decl.typeParameters = []
  attributeLists : decl.attributeLists = []
  modifiers : decl.modifiers.map (·.keyword) = words
  members : ∃ values, AreOf sorts values ∧ decl.members = values.filterMap id

/-- A class of a name with members of a certain sort. -/
structure IsClass (name : String) (count : Nat) (gives : Option TypeMember → Prop)
    (decl : TypeDecl) : Prop where
  name : decl.name = name
  members : ∃ values : List (Option TypeMember), values.length = count ∧
    (∀ value ∈ values, gives value) ∧ decl.members = values.filterMap id

theorem IsWrittenClass.isClass {words : List String} {name : String} {count : Nat} {decl : TypeDecl}
    (written : IsWrittenClass words name (List.replicate count gives) decl) :
    IsClass name count gives decl := by
  obtain ⟨values, areOf, isMembers⟩ := written.members
  obtain ⟨sameLength, areGiven⟩ := areOf.of_replicate
  exact ⟨written.name, values, sameLength, areGiven, isMembers⟩

/-- The body of a class is passed member by member. -/
private theorem typeBody_of_members {depth : Nat}
    (areMembers : List.Forall₂ (IsMember (typeMember (typeDeclWithin depth))) sorts members)
    (start : Span) (file : SourceFile) (previous : Option Token) {opening closing : Token}
    {inner rest : List Token} (recorded : List Diagnostic) (opens : opening.kind = .mark .leftBrace)
    (areKinds : inner.map (·.kind) = members.flatten) (closes : closing.kind = .mark .rightBrace)
    (ends : EndsDeclaration (rest.head?.map (·.kind))) :
    ∃ values : List (Option TypeMember), AreOf sorts values ∧
      typeBody .classType start (typeMember (typeDeclWithin depth)) file
          ⟨previous, opening :: (inner ++ closing :: rest), recorded⟩ =
        .ok (values.filterMap id) ⟨some closing, rest, recorded⟩ := by
  have forward : Forward (typeMember (typeDeclWithin depth)) :=
    forward_typeMember _ (forward_typeDeclWithin depth)
  let add : List TypeMember → TypeMember → List TypeMember := fun found member => found ++ [member]
  obtain ⟨values, areGiven, passed⟩ :=
    @memberLoop_of_members _ _ _ _ add stopsAtEnd_atBodyEnd forward
      atBodyEnd_of_next _ _ areMembers [] file
      (some opening) inner (closing :: rest) recorded areKinds (by simp [EndsDeclaration, closes])
  let atClosing : Cursor := ⟨Token.lastOf (some opening) inner, closing :: rest, recorded⟩
  have run : memberLoop atBodyEnd (typeMember (typeDeclWithin depth))
      (fun found member => found ++ [member]) [] file
        ⟨some opening, inner ++ closing :: rest, recorded⟩ =
          .ok (values.filterMap id) atClosing := by
    refine passed.trans ?_
    rw [memberLoop_of_stop stopsAtEnd_atBodyEnd forward
      (by simp [atBodyEnd_apply, closes]), foldl_addIfAny, List.nil_append]
  have behind : (Cursor.mk (some closing) rest recorded).peek? 0 ≠ some (.mark .semicolon) := by
    rw [Cursor.peek?, ← List.head?_eq_getElem?]
    exact ends
  refine ⟨values, areGiven, ?_⟩
  unfold typeBody
  rw [eat_bind_apply, if_neg (by simp [opens])]
  simp only [Bool.false_eq_true, if_false, reduceCtorEq, bind_apply, expect_apply,
    Cursor.peek?_zero_cons, opens, if_true, Cursor.advance_cons, run]
  simp [closeDeclaration, bind_apply, eat_apply, atClosing, closes, behind, -bind_pure_comp]

/-- A class is passed from its keyword on. -/
private theorem typeDeclWithin_of_class {name : String} {depth : Nat}
    (areMembers : List.Forall₂ (IsMember (typeMember (typeDeclWithin depth))) sorts members)
    (start : Span) (words : List Modifier) :
    Passes (typeDeclWithin (depth + 1) start [] words) EndsDeclaration
      (bareClassKinds name members) (IsWrittenClass (words.map (·.keyword)) name sorts) := by
  intro file previous tokens rest recorded areKinds ends
  obtain ⟨keyword, tokens, rfl, isKeyword, areKinds⟩ := List.map_eq_cons_iff.mp areKinds
  obtain ⟨nameToken, tokens, rfl, isName, areKinds⟩ := List.map_eq_cons_iff.mp areKinds
  obtain ⟨opening, tokens, rfl, opens, areKinds⟩ := List.map_eq_cons_iff.mp areKinds
  obtain ⟨inner, last, rfl, innerKinds, lastKind⟩ := List.map_eq_append_iff.mp areKinds
  obtain ⟨closing, rfl, closes⟩ := List.map_eq_singleton_iff.mp lastKind
  let behindName : Cursor := ⟨some nameToken, opening :: (inner ++ closing :: rest), recorded⟩
  have head : typeHead file behindName = .ok [] behindName :=
    typeHead_of_brace file (congrArg some opens)
  obtain ⟨values, areGiven, run⟩ := typeBody_of_members areMembers start file
    (some nameToken) recorded opens innerKinds closes ends
  let later : Cursor := ⟨some closing, rest, recorded⟩
  let nameSpan := nameToken.span
  refine ⟨⟨later.spanFrom start, .classType, name, nameSpan, [], [], words, values.filterMap id⟩,
    ⟨rfl, rfl, rfl, rfl, rfl, values, areGiven, rfl⟩, ?_⟩
  have kind : typeKind file ⟨previous, keyword :: nameToken :: behindName.remaining, recorded⟩ =
      .ok .classType ⟨some keyword, nameToken :: behindName.remaining, recorded⟩ := by
    simp [typeKind, bind_apply, isKeyword, TokenKind.ident?]
  have named : expectIdent file ⟨some keyword, nameToken :: behindName.remaining, recorded⟩ =
      .ok (name, nameSpan) behindName := by
    simp [expectIdent_apply, isName, TokenKind.ident?, behindName, nameSpan, Cursor.nextSpan]
  have tokensAre : keyword :: nameToken :: opening :: (inner ++ [closing]) ++ rest =
      keyword :: nameToken :: behindName.remaining := by
    simp [behindName]
  rw [tokensAre, typeDeclWithin]
  simp only [bind_apply, kind, named, head, behindName, run, spanFrom_apply, pure_apply]
  simp [later, Token.lastOf_append]

/-- Modifiers that have been read from words carry them as their keywords. -/
theorem keywords_of_idents {read : List Modifier} {words : List String}
    (same : read.map (fun modifier => TokenKind.ident modifier.keyword) = words.map .ident) :
    read.map (·.keyword) = words := by
  have idents : (read.map (·.keyword)).map TokenKind.ident = words.map .ident := by
    rw [List.map_map]
    exact same
  exact List.map_injective_iff.mpr (fun _ _ equal => TokenKind.ident.inj equal) idents

/-- The words in front of a class are read as its modifiers. -/
private theorem modifiers_of_class {words : List String} {name : String} {tokens : List Token}
    (modify : ∀ word ∈ words, word ∈ modifierWords)
    (areKinds : tokens.map (·.kind) = classKinds words name members) (file : SourceFile)
    (previous : Option Token) (rest : List Token) (recorded : List Diagnostic) :
    ∃ wordTokens classTokens read, read.map (·.keyword) = words ∧
      tokens = wordTokens ++ classTokens ∧ classTokens.map (·.kind) = bareClassKinds name members ∧
      attributeLists file ⟨previous, tokens ++ rest, recorded⟩ =
        .ok [] ⟨previous, tokens ++ rest, recorded⟩ ∧
      modifiers file ⟨previous, tokens ++ rest, recorded⟩ =
        .ok read ⟨Token.lastOf previous wordTokens, classTokens ++ rest, recorded⟩ ∧
      (Cursor.mk (Token.lastOf previous wordTokens) (classTokens ++ rest) recorded).beginsType =
        true := by
  obtain ⟨wordTokens, classTokens, rfl, wordKinds, ownKinds⟩ := List.map_eq_append_iff.mp areKinds
  obtain ⟨keyword, others, rfl, isKeyword, otherKinds⟩ := List.map_eq_cons_iff.mp ownKinds
  have areWords : ∀ token ∈ wordTokens, token.IsModifier := by
    intro token member
    have isKind : token.kind ∈ words.map TokenKind.ident :=
      wordKinds ▸ List.mem_map_of_mem member
    obtain ⟨word, isWord, same⟩ := List.mem_map.mp isKind
    exact ⟨word, modify word isWord, same.symm⟩
  have noModifier : "class" ∉ modifierWords := by decide
  obtain ⟨read, keywords, run⟩ :=
    @modifiers_of_words file wordTokens (keyword :: others ++ rest) areWords
    previous recorded (fun word named modifies => by
      have isClass : word = "class" := by simpa [isKeyword, TokenKind.ident?] using named.symm
      exact absurd (isClass ▸ modifies) noModifier) (by simp [isKeyword])
  refine ⟨wordTokens, keyword :: others, read, ?_, rfl, ownKinds, ?_, ?_, ?_⟩
  · exact keywords_of_idents (keywords.trans wordKinds)
  · refine attributeLists_of_none file ?_
    cases wordTokens with
    | nil => simp [isKeyword]
    | cons token wordTokens =>
        obtain ⟨word, -, kind⟩ := areWords token List.mem_cons_self
        simp [kind]
  · rw [List.append_assoc]
    exact run
  · simp [Cursor.beginsType, isKeyword, TokenKind.ident?]

/-- A class begins with one of its modifiers or with its keyword. -/
private theorem head_of_classKinds {words : List String} {name : String}
    (modify : ∀ word ∈ words, word ∈ modifierWords) :
    ∃ word ∈ "class" :: modifierWords,
      (classKinds words name members).head? = some (.ident word) := by
  cases words with
  | nil => exact ⟨"class", List.mem_cons_self, rfl⟩
  | cons word words =>
      exact ⟨word, List.mem_cons_of_mem _ (modify word List.mem_cons_self), rfl⟩

/-- What is read of a class as a member. -/
def GivesClass (name : String) (count : Nat) (gives : Option TypeMember → Prop)
    (value : Option TypeMember) : Prop :=
  ∃ decl, value = some (.type decl) ∧ IsClass name count gives decl

/-- A class whose members are known one by one is a member of a type. -/
theorem isTypeMember_writtenClass {words : List String} {name : String}
    (modify : ∀ word ∈ words, word ∈ modifierWords)
    (areMembers : List.Forall₂ IsTypeMember sorts members) :
    IsTypeMember
      (fun value => ∃ decl, value = some (.type decl) ∧ IsWrittenClass words name sorts decl)
      (classKinds words name members) := by
  intro depth enough
  obtain ⟨word, isWord, head⟩ := @head_of_classKinds members words name modify
  refine ⟨⟨.ident word, head, nofun, nofun, nofun⟩, ?_⟩
  intro file previous tokens rest recorded areKinds ends
  obtain ⟨inner, rfl⟩ : ∃ inner, depth = inner + 1 := by
    refine Nat.exists_eq_succ_of_ne_zero ?_
    rintro rfl
    simp [classKinds, bareClassKinds] at enough
  have areMembersHere :
      List.Forall₂ (IsMember (typeMember (typeDeclWithin inner))) sorts members := by
    refine areMembers_of_enough areMembers ?_
    simp only [classKinds, bareClassKinds, List.length_append, List.length_cons] at enough
    omega
  obtain ⟨wordTokens, classTokens, read, rfl, rfl, ownKinds, lists, modifies, begins⟩ :=
    modifiers_of_class modify areKinds file previous rest recorded
  have next : (Cursor.mk previous (wordTokens ++ classTokens ++ rest) recorded).peek? 0 =
      some (.ident word) := by
    apply Cursor.peek?_of_head
    rw [← List.head?_map, areKinds, head]
  let start := (Cursor.mk previous (wordTokens ++ classTokens ++ rest) recorded).nextSpan file
  obtain ⟨decl, isClass, run⟩ := typeDeclWithin_of_class areMembersHere start read file
    (Token.lastOf previous wordTokens) classTokens rest recorded ownKinds ends
  refine ⟨some (.type decl), ⟨decl, rfl, isClass⟩, ?_⟩
  rw [typeMember_apply, if_neg (by rw [next]; nofun), lists]
  simp only [modifies, begins, if_true, run, start, Token.lastOf_append]

/-- A class is a member of a type. -/
theorem isTypeMember_class {words : List String} {name : String}
    (modify : ∀ word ∈ words, word ∈ modifierWords)
    (areMembers : ∀ kinds ∈ members, IsTypeMember gives kinds) :
    IsTypeMember (GivesClass name members.length gives) (classKinds words name members) := by
  intro depth enough
  refine (isTypeMember_writtenClass modify (forall₂_replicate areMembers) depth enough).mono ?_
  rintro value ⟨decl, rfl, written⟩
  exact ⟨decl, rfl, written.isClass⟩

end Types

section Items

variable {gives : Option TypeMember → Prop} {sorts : List (Option TypeMember → Prop)}
  {members : List (List TokenKind)}

/-- Tokens of some kinds are passed as an item of a namespace, however deep the
namespace stands. -/
def IsItem (gives : Option NamespaceItem → Prop) (kinds : List TokenKind) : Prop :=
  ∀ depth, kinds.length ≤ depth → IsMember (namespaceItem (namespaceDeclWithin depth)) gives kinds

/-- What is read of a class in a namespace. -/
def GivesClassItem (name : String) (count : Nat) (gives : Option TypeMember → Prop)
    (value : Option NamespaceItem) : Prop :=
  ∃ decl, value = some (.member (.type decl)) ∧ IsClass name count gives decl

/-- Behind its modifiers a type is an item of a namespace. -/
private theorem namespaceItem_of_type {inner : Span → Parser NamespaceDecl} {file : SourceFile}
    {cursor behind later : Cursor} {word : String} {words : List Modifier} {decl : TypeDecl}
    (next : cursor.peek? 0 = some (.ident word)) (isWord : word ∈ "class" :: modifierWords)
    (lists : attributeLists file cursor = .ok [] cursor)
    (modifies : modifiers file cursor = .ok words behind) (begins : behind.beginsType = true)
    (run : typeDeclWithin (behind.remaining.length + 1) (cursor.nextSpan file)
      [] words file behind =
      .ok decl later) :
    namespaceItem inner file cursor = .ok (some (.member (.type decl))) later := by
  have others : ∀ word ∈ "class" :: modifierWords,
      word ≠ "global" ∧ word ≠ "using" ∧ word ≠ "namespace" := by decide
  obtain ⟨noGlobal, noUsing, noSpace⟩ := others word isWord
  unfold namespaceItem
  simp [bind_apply, next, TokenKind.ident?, noGlobal, noUsing, noSpace, atUsingDirective, eat_apply,
    lists, modifies, atTypeKeyword_apply, begins, run, -bind_pure_comp]

/-- A class whose members are known one by one is an item of a namespace. -/
theorem isItem_writtenClass {words : List String} {name : String}
    (modify : ∀ word ∈ words, word ∈ modifierWords)
    (areMembers : List.Forall₂ IsTypeMember sorts members) :
    IsItem (fun value => ∃ decl, value = some (.member (.type decl)) ∧
      IsWrittenClass words name sorts decl)
      (classKinds words name members) := by
  intro depth enough
  obtain ⟨word, isWord, head⟩ := @head_of_classKinds members words name modify
  refine ⟨⟨.ident word, head, nofun, nofun, nofun⟩, ?_⟩
  intro file previous tokens rest recorded areKinds ends
  obtain ⟨wordTokens, classTokens, read, rfl, rfl, ownKinds, lists, modifies, begins⟩ :=
    modifiers_of_class modify areKinds file previous rest recorded
  have areMembersHere : List.Forall₂
      (IsMember (typeMember (typeDeclWithin (classTokens ++ rest).length))) sorts members := by
    refine areMembers_of_enough areMembers ?_
    have sameLength := congrArg List.length ownKinds
    simp only [bareClassKinds, List.length_append, List.length_cons,
      List.length_map] at sameLength ⊢
    omega
  have next : (Cursor.mk previous (wordTokens ++ classTokens ++ rest) recorded).peek? 0 =
      some (.ident word) := by
    apply Cursor.peek?_of_head
    rw [← List.head?_map, areKinds, head]
  let start := (Cursor.mk previous (wordTokens ++ classTokens ++ rest) recorded).nextSpan file
  obtain ⟨decl, isClass, run⟩ := typeDeclWithin_of_class areMembersHere start read file
    (Token.lastOf previous wordTokens) classTokens rest recorded ownKinds ends
  refine ⟨some (.member (.type decl)), ⟨decl, rfl, isClass⟩, ?_⟩
  rw [Token.lastOf_append]
  exact namespaceItem_of_type next isWord lists modifies begins run

/-- A class is an item of a namespace. -/
theorem isItem_class {words : List String} {name : String}
    (modify : ∀ word ∈ words, word ∈ modifierWords)
    (areMembers : ∀ kinds ∈ members, IsTypeMember gives kinds) :
    IsItem (GivesClassItem name members.length gives) (classKinds words name members) := by
  intro depth enough
  refine (isItem_writtenClass modify (forall₂_replicate areMembers) depth enough).mono ?_
  rintro value ⟨decl, rfl, written⟩
  exact ⟨decl, rfl, written.isClass⟩

/-- What begins as an item does is no stray brace. -/
private theorem IsMember.openItem {inner : Span → Parser NamespaceDecl}
    {gives : Option NamespaceItem → Prop} {kinds : List TokenKind}
    (isMember : IsMember (namespaceItem inner) gives kinds) :
    IsMember (openItem inner) gives kinds := by
  refine ⟨isMember.begins, ?_⟩
  intro file previous tokens rest recorded areKinds ends
  obtain ⟨kind, head, noBrace, -⟩ := isMember.begins
  have next : (Cursor.mk previous (tokens ++ rest) recorded).peek? 0 = some kind := by
    apply Cursor.peek?_of_head
    rw [← List.head?_map, areKinds, head]
  obtain ⟨value, given, run⟩ :=
    isMember.passes file previous tokens rest recorded areKinds ends
  refine ⟨value, given, ?_⟩
  simp [Parser.openItem, skipStrayBrace, bind_apply, next, noBrace, run]

/-- Items one behind the other are passed as what a file holds. -/
theorem fileBody_of_items {sorts : List (Option NamespaceItem → Prop)}
    {items : List (List TokenKind)}
    (areItems : List.Forall₂ IsItem sorts items) (file : SourceFile) {tokens : List Token}
    (areKinds : tokens.map (·.kind) = items.flatten) :
    ∃ values : List (Option NamespaceItem), AreOf sorts values ∧ ∃ later : Cursor,
      later.recorded = [] ∧ fileBody file (Cursor.start tokens) =
        .ok (values.foldl (addIfAny NamespaceBody.add) ⟨[], []⟩) later := by
  let inner := namespaceDeclWithin (tokens.length + 1)
  have forward : Forward (openItem inner) := forward_openItem (forward_namespaceDeclWithin _)
  have areMembers : List.Forall₂ (IsMember (openItem inner)) sorts items := by
    refine (areMembers_of_enough areItems ?_).imp fun _ _ isMember => isMember.openItem
    rw [← areKinds, List.length_map]
    exact Nat.le_succ _
  have goesOn (file : SourceFile) (cursor : Cursor) (kind : TokenKind)
      (next : cursor.peek? 0 = some kind) (_ : kind ≠ .mark .rightBrace) :
      atEnd file cursor = .ok false cursor := by
    obtain ⟨token, -, remaining⟩ := Cursor.remaining_eq_cons next
    simp [remaining]
  obtain ⟨values, areGiven, passed⟩ :=
    @memberLoop_of_members _ _ _ _ NamespaceBody.add stopsAtEnd_atEnd forward goesOn _ _ areMembers
      ⟨[], []⟩ file none tokens [] [] areKinds nofun
  refine ⟨values, areGiven, ⟨Token.lastOf none tokens, [], []⟩, rfl, ?_⟩
  rw [fileBody_apply]
  rw [List.append_nil] at passed
  refine passed.trans ?_
  exact memberLoop_of_stop stopsAtEnd_atEnd forward rfl _

end Items

end Parser

/-- A text that writes items that are known one by one is parsed as a file of them. -/
theorem SourceUnit.parse_of_writtenItems {text : String} {items : List (List TokenKind)}
    {sorts : List (Option Parser.NamespaceItem → Prop)} (writes : Writes text.toList items.flatten)
    (areItems : List.Forall₂ Parser.IsItem sorts items)
    (closed : TokenKind.openString ∉ items.flatten) (path : String) :
    ∃ values : List (Option Parser.NamespaceItem), Parser.AreOf sorts values ∧
      ∃ body : Parser.NamespaceBody,
        body = values.foldl (Parser.addIfAny Parser.NamespaceBody.add) ⟨[], []⟩ ∧
        ∃ span, SourceUnit.parse text path = .ok ⟨path, span, body.usings, body.members⟩ := by
  let file := SourceFile.ofText path text
  have areKinds := writes.map_kind_tokens path
  obtain ⟨values, areGiven, later, silent, run⟩ := Parser.fileBody_of_items areItems file areKinds
  refine ⟨values, areGiven, _, rfl, file.span 0 file.size, ?_⟩
  exact SourceFile.outlineOf_of_fileBody (areKinds ▸ closed) run silent

/-- A text that writes items one behind the other is parsed as a file of them. -/
theorem SourceUnit.parse_of_items {text : String} {items : List (List TokenKind)}
    {gives : Option Parser.NamespaceItem → Prop} (writes : Writes text.toList items.flatten)
    (areItems : ∀ kinds ∈ items, Parser.IsItem gives kinds)
    (closed : TokenKind.openString ∉ items.flatten) (path : String) :
    ∃ values : List (Option Parser.NamespaceItem), values.length = items.length ∧
      (∀ value ∈ values, gives value) ∧ ∃ body : Parser.NamespaceBody,
        body = values.foldl (Parser.addIfAny Parser.NamespaceBody.add) ⟨[], []⟩ ∧
        ∃ span, SourceUnit.parse text path = .ok ⟨path, span, body.usings, body.members⟩ := by
  obtain ⟨values, areOf, parsed⟩ :=
    SourceUnit.parse_of_writtenItems writes (Parser.forall₂_replicate areItems) closed path
  obtain ⟨sameLength, areGiven⟩ := areOf.of_replicate
  exact ⟨values, sameLength, areGiven, parsed⟩

end ErrorAccessors
