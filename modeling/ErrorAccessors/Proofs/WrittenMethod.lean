/-
# Methods as they are written

A method in the body of a type, taken apart into the stretches of tokens that
it is written as: attribute lists, modifiers, a return type, a name, type
parameters, a parameter list and a body.  Which stretch is what is said by the
readers themselves, each run on its stretch alone, or by the grammar of types.

Such a member is read as exactly the method that is written, wherever it stands
and whatever is written behind it, with one exception.  A word in front of a
parenthesis is not taken for a modifier, so a member with modifiers whose return
type begins with a parenthesis is taken for one that has no return type.  It is
skipped, and nothing is said about it.
-/

import ErrorAccessors.Proofs.MemberReading

namespace ErrorAccessors

open ErrorAccessors.Parser

/-- The words that begin a type declaration. -/
def typeWords : List String := ["class", "struct", "interface", "enum", "record"]

/-- The words that begin a member which is neither a method nor a type. -/
def otherMemberWords : List String := ["delegate", "event", "operator", "implicit", "explicit"]

section Types

variable {typeTokens others : List Token} {value : TypeExpr} {name : String}
  (spells : Spells (typeTokens.map (·.kind)) (.type value))
  (named : others.head?.map (·.kind) = some (.ident name)) (previous : Option Token)
  (recorded : List Diagnostic)

include spells named

/-- What the readers see in front of a type that is followed by a name. -/
theorem next_of_spelled :
    let cursor : Cursor := ⟨previous, typeTokens ++ others, recorded⟩
    (typeTokens.head?.map (·.kind) = some (.mark .leftParen) ∧
        cursor.peek? 0 = some (.mark .leftParen)) ∨
      ∃ word, typeTokens.head?.map (·.kind) = some (.ident word) ∧
        cursor.peek? 0 = some (.ident word) ∧ cursor.peek? 1 ≠ some (.mark .leftParen) := by
  have begins : BeginsWell (typeTokens.map (·.kind)) := spells.beginsWell
  cases tokensAre : typeTokens with
  | nil => rcases begins with ⟨_, _, kinds, -⟩ | ⟨_, kinds⟩ <;> simp [tokensAre] at kinds
  | cons token tokens =>
      rw [tokensAre, List.map_cons] at begins
      rcases begins with ⟨word, more, kinds, noParen⟩ | ⟨_, kinds⟩
      · obtain ⟨kind, rfl⟩ := List.cons.inj kinds
        refine .inr ⟨word, congrArg some kind, congrArg some kind, ?_⟩
        rw [List.cons_append, Cursor.peek?_one_cons]
        cases tokens with
        | nil => simp [named]
        | cons second tokens => simpa using noParen
      · exact .inl ⟨congrArg some (List.cons.inj kinds).1, congrArg some (List.cons.inj kinds).1⟩

/-- Neither a modifier nor a type declaration nor another member begins where a type does that is
followed by a name, unless it is a word of the language. -/
theorem beginsMethod_of_spelled
    (plain : ∀ word, typeTokens.head?.map (·.kind) = some (.ident word) →
      word ∉ modifierWords ∧ word ∉ typeWords ∧ word ∉ otherMemberWords) :
    let cursor : Cursor := ⟨previous, typeTokens ++ others, recorded⟩
    cursor.EndsWords ∧ cursor.beginsType = false ∧ cursor.beginsSkipped = false := by
  intro cursor
  rcases next_of_spelled spells named previous recorded with
    ⟨-, paren⟩ | ⟨word, head, next, noParen⟩
  · have noName : (cursor.peek? 0).bind TokenKind.ident? = none := by
      rw [paren]
      rfl
    refine ⟨fun word named => ?_, ?_, ?_⟩
    · rw [noName] at named
      cases named
    · rw [Cursor.beginsType, noName]
    · rw [Cursor.beginsSkipped, noName, paren]
      rfl
  · obtain ⟨noModifier, noType, noOther⟩ := plain word head
    have named : (cursor.peek? 0).bind TokenKind.ident? = some word := by
      rw [next]
      rfl
    refine ⟨fun other isNamed modifies => ?_, ?_, ?_⟩
    · rw [named, Option.some.injEq] at isNamed
      exact absurd (isNamed ▸ modifies) noModifier
    · simp only [typeWords, List.mem_cons, List.not_mem_nil, or_false, not_or] at noType
      rw [Cursor.beginsType, named]
      split <;> simp_all
    · have notCalled : (cursor.peek? 1 == some (.mark .leftParen)) = false := by simpa using noParen
      have notListed : (["delegate", "event", "operator", "implicit", "explicit"].contains word) =
          false := by
        simpa [otherMemberWords] using noOther
      rw [Cursor.beginsSkipped, named, notCalled, next]
      simp only [Option.any_some, notListed]
      rfl

end Types

/-- Words and a type begin with a word or a parenthesis. -/
theorem next_of_words {words typeTokens : List Token} {value : TypeExpr}
    (areWords : ∀ token ∈ words, token.IsModifier)
    (spells : Spells (typeTokens.map (·.kind)) (.type value)) (others : List Token) :
    ∃ kind, (kind.isIdent = true ∨ kind = .mark .leftParen) ∧
      (words ++ (typeTokens ++ others)).head?.map (·.kind) = some kind := by
  cases words with
  | cons token words =>
      obtain ⟨word, -, kind⟩ := areWords token List.mem_cons_self
      exact ⟨.ident word, .inl rfl, congrArg some kind⟩
  | nil =>
      have begins : BeginsWell (typeTokens.map (·.kind)) := spells.beginsWell
      cases tokensAre : typeTokens with
      | nil => rcases begins with ⟨_, _, kinds, -⟩ | ⟨_, kinds⟩ <;> simp [tokensAre] at kinds
      | cons token tokens =>
          rw [tokensAre, List.map_cons] at begins
          refine ⟨token.kind, ?_, rfl⟩
          rcases begins with ⟨word, _, kinds, -⟩ | ⟨_, kinds⟩
          · exact .inl (by rw [(List.cons.inj kinds).1]; rfl)
          · exact .inr (List.cons.inj kinds).1

/-- A method as it is written in a file, with what its parts say. -/
structure WrittenMethod (file : SourceFile) where
  attributeTokens : List Token
  lists : List AttributeList
  wordTokens : List Token
  typeTokens : List Token
  returnType : TypeExpr
  nameToken : Token
  name : String
  parameterTokens : List Token
  typeParameters : List String
  listTokens : List Token
  bodyTokens : List Token
  body : MethodBody
  attributes_read : ∃ last,
    attributeLists file (Cursor.start attributeTokens) = .ok lists ⟨last, [], []⟩
  words_modify : ∀ token ∈ wordTokens, token.IsModifier
  type_read : ∃ last, type file (Cursor.start typeTokens) = .ok returnType ⟨last, [], []⟩
  type_plain : ∀ word, typeTokens.head?.map (·.kind) = some (.ident word) →
    word ∉ modifierWords ∧ word ∉ typeWords ∧ word ∉ otherMemberWords
  name_kind : nameToken.kind = .ident name
  name_plain : name ≠ "operator" ∧ name ≠ "this"
  parameters_read : (parameterTokens = [] ∧ typeParameters = []) ∨ ∃ last,
    Parser.typeParameters file (Cursor.start parameterTokens) = .ok typeParameters ⟨last, [], []⟩
  list_enclosed : Enclosed .leftParen listTokens
  body_written : WritesBody bodyTokens body

namespace WrittenMethod

variable {file : SourceFile} (written : WrittenMethod file)

/-- What is written behind the return type. -/
def tailTokens : List Token :=
  written.nameToken :: (written.parameterTokens ++ (written.listTokens ++ written.bodyTokens))

/-- Everything that is written. -/
def tokens : List Token :=
  written.attributeTokens ++ (written.wordTokens ++ (written.typeTokens ++ written.tailTokens))

/-- What is written up to the return type, in front of something else. -/
def frontOf (others : List Token) : List Token :=
  written.attributeTokens ++ (written.wordTokens ++ (written.typeTokens ++ others))

theorem tokens_append (rest : List Token) :
    written.tokens ++ rest = written.frontOf (written.tailTokens ++ rest) := by
  simp [tokens, frontOf]

/-- A method that has been read says what was written. -/
structure IsReadAs (method : MethodDecl) : Prop where
  lists : method.attributeLists.map AttributeList.unplaced =
    written.lists.map AttributeList.unplaced
  words : method.modifiers.map (fun modifier => TokenKind.ident modifier.keyword) =
    written.wordTokens.map (·.kind)
  returnType : method.returnType.unplaced = written.returnType.unplaced
  name : method.name = written.name
  typeParameters : method.typeParameters = written.typeParameters
  body : method.body = written.body

/-- The exception: the last modifier stands in front of a parenthesis. -/
def IsTakenForOther : Prop :=
  written.wordTokens ≠ [] ∧ written.typeTokens.head?.map (·.kind) = some (.mark .leftParen)

section Tail

variable (previous : Option Token) (rest : List Token) (recorded : List Diagnostic)

/-- The type parameters are read in front of the parameter list. -/
private theorem parameters_again :
    parametersIfAny [] file
        ⟨previous, written.parameterTokens ++ (written.listTokens ++ rest), recorded⟩ =
      .ok written.typeParameters
        ⟨Token.lastOf previous written.parameterTokens, written.listTokens ++ rest, recorded⟩ := by
  have listNext (previous : Option Token) :=
    Cursor.peek?_of_head written.list_enclosed.opens previous rest recorded
  rw [parametersIfAny_apply]
  rcases written.parameters_read with ⟨noTokens, noParameters⟩ | ⟨last, run⟩
  · rw [noTokens, noParameters, List.nil_append, listNext, if_neg (by simp)]
    rfl
  · obtain ⟨before, closing, passed, -, again⟩ :=
      closes_typeParameters.rereads file _ _ _ run rfl
    have tokensAre : written.parameterTokens = before ++ [closing] := passed
    have opened : (Cursor.mk previous (written.parameterTokens ++ (written.listTokens ++ rest))
        recorded).peek? 0 = some (.mark .less) := by
      refine Cursor.peek?_of_head ?_ _ _ _
      have opens := next_of_typeParameters run
      rw [Cursor.peek?, Cursor.start, ← List.head?_eq_getElem?] at opens
      exact opens
    obtain ⟨names, same, runAgain⟩ := again file previous written.parameterTokens
      (written.listTokens ++ rest) recorded (tokensAre ▸ .refl file _) trivial
    obtain rfl : names = written.typeParameters := same
    rw [if_pos opened, runAgain]

/-- The name is read up to the parameter list. -/
theorem name_again : ∃ nameSpan,
    memberName file ⟨previous, written.tailTokens ++ rest, recorded⟩ =
      .ok (written.name, nameSpan, written.typeParameters)
        ⟨Token.lastOf (some written.nameToken) written.parameterTokens,
          written.listTokens ++ (written.bodyTokens ++ rest), recorded⟩ := by
  let cursor : Cursor := ⟨previous, written.nameToken :: (written.parameterTokens ++
    (written.listTokens ++ (written.bodyTokens ++ rest))), recorded⟩
  have tokensAre : (Cursor.mk previous (written.tailTokens ++ rest) recorded) = cursor := by
    simp [tailTokens, cursor]
  have named : cursor.peek? 0 = some (.ident written.name) := congrArg some written.name_kind
  have opened := Cursor.peek?_of_head written.list_enclosed.opens
    (Token.lastOf (some written.nameToken) written.parameterTokens) (written.bodyTokens ++ rest)
      recorded
  rw [tokensAre]
  exact ⟨cursor.nextSpan file, memberName_of_parameters named
    (written.parameters_again (some written.nameToken) (written.bodyTokens ++ rest) recorded)
    (by simp [opened])⟩

/-- Behind a name that is read up to the parameter list, everything is read as the tail of a
method. -/
theorem tail_of_name {cursor : Cursor} {word name : String} {nameSpan : Span}
    {parameters : List String} {last : Option Token} (named : cursor.peek? 0 = some (.ident word))
    (ordinary : word ≠ "operator" ∧ word ≠ "this")
    (read : memberName file cursor = .ok (name, nameSpan, parameters)
      ⟨last, written.listTokens ++ (written.bodyTokens ++ rest), recorded⟩) :
    methodTail file cursor = .ok (some ⟨name, nameSpan, parameters, written.body⟩)
      ⟨Token.lastOf last (written.listTokens ++ written.bodyTokens), rest, recorded⟩ := by
  obtain ⟨behind, closed⟩ := written.list_enclosed.closed
  obtain ⟨mark, stops, head⟩ := written.body_written.begins
  refine methodTail_of_parts named ordinary read
    (Cursor.peek?_of_head written.list_enclosed.opens _ _ _)
    (skipBalanced_of_closed file last recorded closed) stops
    (Cursor.peek?_of_head head _ rest recorded) ?_
  rw [methodBody_of_writes written.body_written, Token.lastOf_append]

/-- The name and everything behind it is read as the tail of a method. -/
private theorem tail_again : ∃ nameSpan,
    methodTail file ⟨previous, written.tailTokens ++ rest, recorded⟩ =
      .ok (some ⟨written.name, nameSpan, written.typeParameters, written.body⟩)
        ⟨Token.lastOf previous written.tailTokens, rest, recorded⟩ := by
  obtain ⟨nameSpan, read⟩ := written.name_again previous rest recorded
  have named : (Cursor.mk previous (written.tailTokens ++ rest) recorded).peek? 0 =
      some (.ident written.name) := congrArg some written.name_kind
  refine ⟨nameSpan, ?_⟩
  rw [written.tail_of_name rest recorded named written.name_plain read]
  simp [tailTokens]

end Tail

theorem type_spells :
    Spells (written.typeTokens.map (·.kind)) (.type written.returnType.unplaced) := by
  obtain ⟨last, run⟩ := written.type_read
  obtain ⟨tokens, passed, spells⟩ := type_spelled run
  obtain rfl : written.typeTokens = tokens := by simpa [Cursor.start] using passed
  exact spells

section Front

variable (previous : Option Token) {others : List Token} {word : String}
  (named : others.head?.map (·.kind) = some (.ident word)) (recorded : List Diagnostic)

/-- What the front of a method begins with. -/
private theorem begins_front (others : List Token) :
    ∃ kind, (kind.isIdent = true ∨ kind = .mark .leftParen ∨ kind = .mark .leftBracket) ∧
      (Cursor.mk previous (written.frontOf others) recorded).peek? 0 = some kind := by
  cases tokensAre : written.attributeTokens with
  | nil =>
      obtain ⟨kind, begins, head⟩ := next_of_words written.words_modify written.type_spells others
      refine ⟨kind, begins.imp_right .inl, ?_⟩
      rw [Cursor.peek?, ← List.head?_eq_getElem?, ← head]
      simp [frontOf, tokensAre]
  | cons token tokens =>
      obtain ⟨last, run⟩ := written.attributes_read
      refine ⟨.mark .leftBracket, .inr (.inr rfl), ?_⟩
      refine Classical.byContradiction fun noBracket => ?_
      have kindIs : token.kind ≠ .mark .leftBracket := by
        intro bracket
        refine noBracket ?_
        simp [frontOf, tokensAre, bracket]
      rw [tokensAre, Cursor.start, attributeLists_of_none file (by simpa using kindIs)] at run
      simp at run

/-- A method does not begin with a mark that ends something or with a fault. -/
private theorem next_ne (others : List Token) {kind : TokenKind} (noName : kind.isIdent = false)
    (noMark : kind ≠ .mark .leftParen ∧ kind ≠ .mark .leftBracket) :
    (Cursor.mk previous (written.frontOf others) recorded).peek? 0 ≠ some kind := by
  obtain ⟨found, begins, next⟩ := written.begins_front previous recorded others
  rintro same
  obtain rfl := Option.some.inj (next.symm.trans same)
  rcases begins with isIdent | isParen | isBracket
  · rw [noName] at isIdent
    cases isIdent
  · exact noMark.1 isParen
  · exact noMark.2 isBracket

private theorem next_ne_semicolon (others : List Token) :
    (Cursor.mk previous (written.frontOf others) recorded).peek? 0 ≠ some (.mark .semicolon) :=
  written.next_ne previous recorded others rfl ⟨by simp, by simp⟩

/-- Where a method begins there is no fault. -/
theorem next_ne_fault (others : List Token) (spelling : String) :
    (Cursor.mk previous (written.frontOf others) recorded).peek? 0 ≠ some (.fault spelling) :=
  written.next_ne previous recorded others rfl ⟨by simp, by simp⟩

/-- The body of a type does not end where a method begins. -/
theorem bodyEnd_front (others : List Token) :
    atBodyEnd file ⟨previous, written.frontOf others, recorded⟩ =
      .ok false ⟨previous, written.frontOf others, recorded⟩ := by
  have notClosed : (Cursor.mk previous (written.frontOf others) recorded).peek? 0 ≠
      some (.mark .rightBrace) :=
    written.next_ne previous recorded others rfl ⟨by simp, by simp⟩
  have notEnd : (written.frontOf others).isEmpty = false := by
    obtain ⟨kind, -, next⟩ := written.begins_front previous recorded others
    cases tokensAre : written.frontOf others with
    | nil => simp [tokensAre] at next
    | cons token tokens => rfl
  simp [atBodyEnd_apply, notClosed, notEnd]

/-- The attribute lists are read in front of the words and the type. -/
private theorem lists_again (others : List Token) : ∃ lists,
    lists.map AttributeList.unplaced = written.lists.map AttributeList.unplaced ∧
      attributeLists file ⟨previous, written.frontOf others, recorded⟩ =
        .ok lists ⟨Token.lastOf previous written.attributeTokens,
          written.wordTokens ++ (written.typeTokens ++ others), recorded⟩ := by
  obtain ⟨last, run⟩ := written.attributes_read
  obtain ⟨-, tokens, passed, again⟩ := rereads_attributeLists run rfl
  obtain rfl : written.attributeTokens = tokens := by simpa [Cursor.start] using passed
  obtain ⟨kind, begins, head⟩ := next_of_words written.words_modify written.type_spells others
  have notBracket : (Cursor.mk (Token.lastOf previous written.attributeTokens)
      (written.wordTokens ++ (written.typeTokens ++ others)) recorded).peek? 0 ≠
        some (.mark .leftBracket) := by
    rw [Cursor.peek?, ← List.head?_eq_getElem?, head]
    rcases begins with isIdent | rfl
    · rintro bracket
      cases Option.some.inj bracket
      cases isIdent
    · simp
  exact again file previous written.attributeTokens _ recorded (.refl file _) notBracket

/-- A member that is taken for another one is skipped, whatever stands behind its type. -/
theorem typeMember_of_taken (nested : Span → List AttributeList → List Modifier → Parser TypeDecl)
    (others : List Token) (isOther : written.IsTakenForOther) : ∃ later,
    later.remaining.length < (written.frontOf others).length ∧
      typeMember nested file ⟨previous, written.frontOf others, recorded⟩ = .ok none later := by
  obtain ⟨nonempty, paren⟩ := isOther
  obtain ⟨before, token, wordsAre⟩ : ∃ before token, written.wordTokens = before ++ [token] :=
    ⟨_, _, (List.dropLast_concat_getLast nonempty).symm⟩
  obtain ⟨word, modifies, kind⟩ := written.words_modify token (by simp [wordsAre])
  obtain ⟨lists, -, listsRun⟩ := written.lists_again previous recorded others
  let behind := written.typeTokens ++ others
  let atWord (previous : Option Token) : Cursor := ⟨previous, token :: behind, recorded⟩
  have named (previous : Option Token) : (atWord previous).peek? 0 = some (.ident word) :=
    congrArg some kind
  have parenBehind (previous : Option Token) :
      (atWord previous).peek? 1 = some (.mark .leftParen) := by
    rw [Cursor.peek?_one_cons, ← paren]
    cases typeIs : written.typeTokens with
    | nil => simp [typeIs] at paren
    | cons first tokens => simp [behind, typeIs]
  -- the last word is left where it is, because a parenthesis stands behind it
  have endsWords (previous : Option Token) : (atWord previous).EndsWords :=
    fun _ _ _ => parenBehind previous
  have areWords : ∀ other ∈ before, other.IsModifier :=
    fun other member => written.words_modify other (by simp [wordsAre, member])
  obtain ⟨words, -, wordsRun⟩ := modifiers_of_words file areWords
    (Token.lastOf previous written.attributeTokens) recorded (endsWords _) (by simp [kind])
  have noType (previous : Option Token) : (atWord previous).beginsType = false := by
    have disjoint : ∀ word ∈ modifierWords, word ∉ typeWords := by decide
    have isNone := disjoint word modifies
    simp only [typeWords, List.mem_cons, List.not_mem_nil, or_false, not_or] at isNone
    rw [Cursor.beginsType, named previous]
    simp only [Option.bind_some, TokenKind.ident?]
    split <;> simp_all
  have isSkipped (previous : Option Token) : (atWord previous).beginsSkipped = true := by
    rw [Cursor.beginsSkipped, named previous, parenBehind previous]
    rfl
  let stopped := Token.lastOf (Token.lastOf previous written.attributeTokens) before
  obtain ⟨later, behindWord⟩ := skipBy_ok memberAction file (atWord stopped).advance
  have skipped : skipMember file (atWord stopped) = .ok () later := by
    rw [skipMember_eq]
    refine (loop_of_yield file (progresses_skipRound memberAction) ?_).trans behindWord
    rw [skipRound_apply, named stopped]
    rfl
  refine ⟨later, ?_, ?_⟩
  · have atMost := ((forward_skipBy memberAction).of_ok behindWord).length_le
    have fewer : behind.length < (written.frontOf others).length := by
      simp only [behind, frontOf, wordsAre, List.length_append, List.length_cons, List.length_nil]
      omega
    exact Nat.lt_of_le_of_lt atMost fewer
  · have wordsRun' : modifiers file ⟨Token.lastOf previous written.attributeTokens,
        written.wordTokens ++ behind, recorded⟩ = .ok words (atWord stopped) := by
      rw [wordsAre, List.append_assoc]
      exact wordsRun
    rw [typeMember_apply, if_neg (written.next_ne_semicolon previous recorded others), listsRun]
    simp only [behind] at wordsRun'
    simp only [wordsRun', noType, isSkipped, Bool.false_eq_true, if_false, if_true, bind_apply,
      skipped, pure_apply]

include named

/-- The return type is read in front of a name. -/
private theorem type_again : ∃ read, read.unplaced = written.returnType.unplaced ∧
    type file ⟨previous, written.typeTokens ++ others, recorded⟩ =
      .ok read ⟨Token.lastOf previous written.typeTokens, others, recorded⟩ := by
  have next : (Cursor.mk (Token.lastOf previous written.typeTokens) others recorded).peek? 0 =
      some (.ident word) := by
    rw [Cursor.peek?, ← List.head?_eq_getElem?, named]
  exact rereads_type written.type_spells file previous written.typeTokens _ recorded
    (.refl file _) (.of_kind next (by simp [TokenKind.isIdent, TokenKind.ident?]))

/-- What the readers see in front of the return type. -/
private theorem type_next :
    let cursor : Cursor := ⟨previous, written.typeTokens ++ others, recorded⟩
    (written.typeTokens.head?.map (·.kind) = some (.mark .leftParen) ∧
        cursor.peek? 0 = some (.mark .leftParen)) ∨
      ∃ word, written.typeTokens.head?.map (·.kind) = some (.ident word) ∧
        cursor.peek? 0 = some (.ident word) ∧ cursor.peek? 1 ≠ some (.mark .leftParen) :=
  next_of_spelled written.type_spells named previous recorded

/-- Neither a type nor another member begins where the return type does. -/
private theorem type_beginsMethod :
    let cursor : Cursor := ⟨previous, written.typeTokens ++ others, recorded⟩
    cursor.EndsWords ∧ cursor.beginsType = false ∧ cursor.beginsSkipped = false :=
  beginsMethod_of_spelled written.type_spells named previous recorded written.type_plain

/-- The modifiers are read in front of the return type, unless the last of them
stands in front of a parenthesis. -/
private theorem words_again (isMethod : ¬written.IsTakenForOther) : ∃ words,
    words.map (fun modifier => TokenKind.ident modifier.keyword) =
        written.wordTokens.map (·.kind) ∧
      modifiers file ⟨previous, written.wordTokens ++ (written.typeTokens ++ others), recorded⟩ =
        .ok words ⟨Token.lastOf previous written.wordTokens, written.typeTokens ++ others,
          recorded⟩ := by
  obtain ⟨endsWords, -, -⟩ := written.type_beginsMethod
    (Token.lastOf previous written.wordTokens) named recorded
  refine modifiers_of_words file written.words_modify previous recorded endsWords ?_
  intro nonempty paren
  refine isMethod ⟨nonempty, ?_⟩
  rcases written.type_next previous named recorded with ⟨head, -⟩ | ⟨word, -, next, -⟩
  · exact head
  · rw [Cursor.peek?, ← List.head?_eq_getElem?, paren] at next
    cases next

/-- Everything up to the return type is read as it is written, and the rest of the member as
the tail of a method. -/
theorem typeMember_of_front (nested : Span → List AttributeList → List Modifier → Parser TypeDecl)
    (isMethod : ¬written.IsTakenForOther) : ∃ start lists words returnType,
    lists.map AttributeList.unplaced = written.lists.map AttributeList.unplaced ∧
      words.map (fun modifier => TokenKind.ident modifier.keyword) =
        written.wordTokens.map (·.kind) ∧
      returnType.unplaced = written.returnType.unplaced ∧
      typeMember nested file ⟨previous, written.frontOf others, recorded⟩ =
        match methodTail file ⟨Token.lastOf previous (written.frontOf []), others, recorded⟩ with
        | .error diagnostic later => .error diagnostic later
        | .ok none later => .ok none later
        | .ok (some tail) later =>
          .ok (some (.method ⟨later.spanFrom start, lists, words, returnType, tail.name,
            tail.nameSpan, tail.typeParameters, tail.body⟩)) later := by
  let here : Cursor := ⟨previous, written.frontOf others, recorded⟩
  have lastToken : Token.lastOf previous (written.frontOf []) = Token.lastOf (Token.lastOf
      (Token.lastOf previous written.attributeTokens) written.wordTokens) written.typeTokens := by
    simp [frontOf]
  rw [lastToken]
  obtain ⟨lists, sameLists, listsRun⟩ := written.lists_again previous recorded others
  generalize Token.lastOf previous written.attributeTokens = behindLists at listsRun ⊢
  obtain ⟨words, sameWords, wordsRun⟩ := written.words_again behindLists named recorded isMethod
  generalize Token.lastOf behindLists written.wordTokens = behindWords at wordsRun ⊢
  obtain ⟨-, noType, noOther⟩ := written.type_beginsMethod behindWords named recorded
  obtain ⟨returnType, sameType, typeRun⟩ := written.type_again behindWords named recorded
  refine ⟨here.nextSpan file, lists, words, returnType, sameLists, sameWords, sameType, ?_⟩
  rw [typeMember_apply, if_neg (written.next_ne_semicolon previous recorded others), listsRun]
  simp only [wordsRun, noType, noOther, Bool.false_eq_true, if_false, method?_apply, typeRun]
  cases methodTail file ⟨Token.lastOf behindWords written.typeTokens, others, recorded⟩ with
  | error diagnostic later => rfl
  | ok tail later => cases tail <;> rfl

end Front

section Reading

variable (nested : Span → List AttributeList → List Modifier → Parser TypeDecl)
  (previous : Option Token) (rest : List Token) (recorded : List Diagnostic)

private theorem named_next :
    (written.tailTokens ++ rest).head?.map (·.kind) = some (.ident written.name) :=
  congrArg some written.name_kind

/-- What a method begins with. -/
private theorem begins :
    ∃ kind, (kind.isIdent = true ∨ kind = .mark .leftParen ∨ kind = .mark .leftBracket) ∧
      (Cursor.mk previous (written.tokens ++ rest) recorded).peek? 0 = some kind := by
  rw [tokens_append]
  exact written.begins_front previous recorded _

private theorem bodyEnd_false :
    atBodyEnd file ⟨previous, written.tokens ++ rest, recorded⟩ =
      .ok false ⟨previous, written.tokens ++ rest, recorded⟩ := by
  rw [tokens_append]
  exact written.bodyEnd_front previous recorded _

/-- A method that is not taken for another member is read as it is written. -/
theorem typeMember_of_method (isMethod : ¬written.IsTakenForOther) : ∃ method,
    written.IsReadAs method ∧
      typeMember nested file ⟨previous, written.tokens ++ rest, recorded⟩ =
        .ok (some (.method method)) ⟨Token.lastOf previous written.tokens, rest, recorded⟩ := by
  obtain ⟨start, lists, words, returnType, sameLists, sameWords, sameType, run⟩ :=
    written.typeMember_of_front previous (written.named_next rest) recorded nested isMethod
  have lastToken : Token.lastOf previous written.tokens =
      Token.lastOf (Token.lastOf previous (written.frontOf [])) written.tailTokens := by
    simp [tokens, frontOf]
  obtain ⟨nameSpan, tailRun⟩ :=
    written.tail_again (Token.lastOf previous (written.frontOf [])) rest recorded
  rw [tokens_append, lastToken, run, tailRun]
  exact ⟨_, ⟨sameLists, sameWords, sameType, rfl, rfl, rfl⟩, rfl⟩

/-- A method that is taken for another member is skipped. -/
private theorem typeMember_of_other (isOther : written.IsTakenForOther) : ∃ later,
    later.remaining.length < (written.tokens ++ rest).length ∧
      typeMember nested file ⟨previous, written.tokens ++ rest, recorded⟩ = .ok none later := by
  rw [tokens_append]
  exact written.typeMember_of_taken previous recorded nested (written.tailTokens ++ rest) isOther

/-- In the body of a type a method is read as exactly the method that is written,
and reading goes on behind it, unless its last modifier stands in front of a
parenthesis.  In that case nothing is read, and reading goes on elsewhere. -/
theorem read_iff (depth : Nat) (found : List TypeMember) :
    let here : Cursor := ⟨previous, written.tokens ++ rest, recorded⟩
    let behind : Cursor := ⟨Token.lastOf previous written.tokens, rest, recorded⟩
    let member := typeMember (typeDeclWithin depth)
    let members := memberLoop atBodyEnd member fun found member => found ++ [member]
    ((∃ method, written.IsReadAs method ∧ member file here = .ok (some (.method method)) behind) ↔
        ¬written.IsTakenForOther) ∧
      (¬written.IsTakenForOther → ∃ method, written.IsReadAs method ∧
        members found file here = members (found ++ [.method method]) file behind) ∧
      (written.IsTakenForOther → ∃ later,
        member file here = .ok none later ∧
        members found file here = members found file later) := by
  intro here behind member members
  have forward : Forward member := forward_typeMember _ (forward_typeDeclWithin depth)
  have noFault (spelling : String) : here.peek? 0 ≠ some (.fault spelling) := by
    obtain ⟨kind, begins, next⟩ := written.begins previous rest recorded
    rintro fault
    obtain rfl := Option.some.inj (next.symm.trans fault)
    simp [TokenKind.isIdent, TokenKind.ident?] at begins
  have goesOn := written.bodyEnd_false previous rest recorded
  have isRead (isMethod : ¬written.IsTakenForOther) :=
    written.typeMember_of_method (typeDeclWithin depth) previous rest recorded isMethod
  have isSkipped (isOther : written.IsTakenForOther) :=
    written.typeMember_of_other (typeDeclWithin depth) previous rest recorded isOther
  refine ⟨⟨fun wasRead isOther => ?_, isRead⟩, fun isMethod => ?_, fun isOther => ?_⟩
  · obtain ⟨method, -, run⟩ := wasRead
    obtain ⟨later, -, skipped⟩ := isSkipped isOther
    cases run.symm.trans skipped
  · obtain ⟨method, agrees, run⟩ := isRead isMethod
    have fewer : behind.remaining.length < here.remaining.length := by
      simp only [here, behind, tokens, tailTokens, List.length_append, List.length_cons]
      omega
    exact ⟨method, agrees,
      memberLoop_of_read stopsAtEnd_atBodyEnd forward goesOn noFault run fewer found⟩
  · obtain ⟨later, fewer, skipped⟩ := isSkipped isOther
    exact ⟨later, skipped,
      memberLoop_of_read stopsAtEnd_atBodyEnd forward goesOn noFault skipped fewer found⟩

end Reading

section Pairs

/-- Tokens of some kinds, at no particular place. -/
def bare (kinds : List TokenKind) : List Token :=
  kinds.map fun kind => ⟨kind, .nowhere⟩

/-- The method `(int, string) M()` with an empty block, behind some modifiers. -/
def pairMethod (words : List String) (modify : ∀ word ∈ words, word ∈ modifierWords) :
    WrittenMethod (SourceFile.ofText "" "") where
  attributeTokens := []
  lists := []
  wordTokens := bare (words.map .ident)
  typeTokens := bare [.mark .leftParen, .ident "int", .mark .comma, .ident "string",
    .mark .rightParen]
  returnType := .tuple [⟨.predefined "int" .nowhere, none⟩, ⟨.predefined "string" .nowhere, none⟩]
    .nowhere
  nameToken := ⟨.ident "M", .nowhere⟩
  name := "M"
  parameterTokens := []
  typeParameters := []
  listTokens := bare [.mark .leftParen, .mark .rightParen]
  bodyTokens := bare [.mark .leftBrace, .mark .rightBrace]
  body := .block
  attributes_read := ⟨none, rfl⟩
  words_modify := by
    intro token member
    simp only [bare, List.map_map, List.mem_map] at member
    obtain ⟨word, isWord, rfl⟩ := member
    exact ⟨word, modify word isWord, rfl⟩
  type_read := ⟨some ⟨.mark .rightParen, .nowhere⟩, rfl⟩
  type_plain := nofun
  name_kind := rfl
  name_plain := by decide
  parameters_read := .inl ⟨rfl, rfl⟩
  list_enclosed := ⟨rfl, _, rfl⟩
  body_written := .block ⟨rfl, _, rfl⟩

/-- Without a modifier the method that returns a pair is read, and behind `public`
it is not. -/
theorem read_iff_of_pair :
    let plain := pairMethod [] (by decide)
    let modified := pairMethod ["public"] (by decide)
    (∃ method, plain.IsReadAs method ∧
      typeMember (typeDeclWithin 0) (SourceFile.ofText "" "") ⟨none, plain.tokens ++ [], []⟩ =
        .ok (some (.method method)) ⟨Token.lastOf none plain.tokens, [], []⟩) ∧
    ∃ later, typeMember (typeDeclWithin 0) (SourceFile.ofText "" "")
      ⟨none, modified.tokens ++ [], []⟩ = .ok none later := by
  refine ⟨((pairMethod [] (by decide)).read_iff none [] [] 0 []).1.mpr fun isOther => ?_, ?_⟩
  · exact isOther.1 rfl
  · obtain ⟨later, skipped, -⟩ := ((pairMethod ["public"] (by decide)).read_iff none [] [] 0 []).2.2
      ⟨by decide, rfl⟩
    exact ⟨later, skipped⟩

end Pairs

end WrittenMethod

end ErrorAccessors
