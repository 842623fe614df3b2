/-
# Members with exchanged return types and bodies

An exchange of return types fits if only methods with attributes are given new
types, and the new types are such that the member is still taken for a method.
A method that is exchanged begins with the bracket of an attribute list, which no
reader looks behind, so everything in front of it is read as before; the name
behind the return type ends the new type as it ended the old one.  Nothing of a
method is seen behind the token that opens its body until the body is read.

Members that are no methods are read again as they were, down to the types that are
nested in them.
-/

import ErrorAccessors.Proofs.DeclarationReading
import ErrorAccessors.Proofs.ExchangedReading
import ErrorAccessors.Proofs.TypeSpans

namespace ErrorAccessors

open ErrorAccessors.Parser

/-- What stands behind the attributes and modifiers of a method in front of its
name: it is taken neither for a modifier nor for a type declaration, and the member
is not skipped. -/
def BeginsPlainly (kinds : List TokenKind) : Prop :=
  ∃ word more, kinds = .ident word :: more ∧ word ∉ modifierWords ∧
    word ∉ ["class", "struct", "interface", "enum"] ∧
    word ∉ ["delegate", "event", "operator", "implicit", "explicit"] ∧
    (word = "record" → ∃ kind behind, more = kind :: behind ∧ kind.isIdent = false)

/-- Only methods with attributes are given another return type, and they are still
methods with it. -/
structure Exchange.Fits (exchange : Exchange) : Prop where
  marked : ∀ method given, exchange method = some given → method.attributeLists ≠ []
  begins : ∀ method given kinds written, exchange method = some given →
    Spells kinds (.type method.returnType.unplaced) →
    BeginsPlainly kinds ∨ kinds.head? = some (.mark .leftParen) →
    Spells written (.type given.unplaced) → BeginsPlainly written

/-- What is regarded of a part of an outline, given how places are forgotten and
which methods it holds. -/
def Exchange.regard {α : Type} (exchange : Exchange)
    (unplacedWith : (MethodDecl → MethodDecl) → α → α) (methods : α → List MethodDecl) :
    Regard α α where
  view := unplacedWith MethodDecl.unplaced
  after := unplacedWith fun method => (method.exchanged exchange).unplaced
  found := methods

namespace Parser

/-- The context of a declaration whose attributes and modifiers have been read. -/
structure Declared (ι : Type) (lists : List AttributeList) (words : List Modifier) where
  context : ι
  start : Span
  lists' : List AttributeList
  words' : List Modifier
  sameLists : lists'.map AttributeList.unplaced = lists.map AttributeList.unplaced
  sameWords : words'.map (·.keyword) = words.map (·.keyword)

variable {ι : Type} {exchange : Exchange} {bound : ι → Nat}

section Members

variable (exchange) in
/-- What is regarded of a type declaration. -/
def declRegard : Regard TypeDecl TypeDecl :=
  exchange.regard TypeDecl.unplacedWith TypeDecl.methods

variable (exchange) in
/-- What is regarded of a member, if there is one. -/
def memberRegard : Regard (Option TypeMember) (Option TypeMember) :=
  exchange.regard (fun left => Option.map (TypeMember.unplacedWith left))
    fun member => TypeMember.methodsOfList member.toList

/-- The methods of a nested type. -/
private def nestedMethods : Option TypeMember → List MethodDecl
  | some (.type decl) => decl.methods
  | _ => []

/-- The readers of nested types follow in every context. -/
def NestedFollow (exchange : Exchange) (bound : ι → Nat)
    (nested : Span → List AttributeList → List Modifier → Parser TypeDecl)
    (again : ι → Span → List AttributeList → List Modifier → Parser TypeDecl) : Prop :=
  ∀ start lists words, Follows exchange
    (fun among : Declared ι lists words => bound among.context) anyValue (nested start lists words)
    (fun among : Declared ι lists words =>
      again among.context among.start among.lists' among.words') [] (declRegard exchange)

variable {nested : Span → List AttributeList → List Modifier → Parser TypeDecl}
  {nestedAgain : ι → Span → List AttributeList → List Modifier → Parser TypeDecl}

variable (exchange) in
/-- What is regarded of a member that is no method. -/
private def nestedRegard : Regard (Option TypeMember) (Option TypeMember) :=
  { memberRegard exchange with found := nestedMethods }

/-- A member is no method. -/
private def IsOther (member : Option TypeMember) : Prop :=
  ∀ method, member ≠ some (.method method)

private theorem follows_otherMember (follow : NestedFollow exchange bound nested nestedAgain) :
    Follows exchange bound IsOther (typeMember nested)
      (fun context => typeMember (nestedAgain context)) [] (nestedRegard exchange) := by
  have nothing {κ : Type} {bound : κ → Nat} : Follows exchange bound IsOther
      (pure none : Parser (Option TypeMember)) (fun _ : κ => pure none) []
      (nestedRegard exchange) := follows_pure (fun _ _ => rfl) fun _ => rfl
  have skipped {κ : Type} {bound : κ → Nat} : Follows exchange bound IsOther
      (do skipMember; return none : Parser (Option TypeMember))
      (fun _ : κ => do skipMember; return none) [] (nestedRegard exchange) :=
    .behind_same repeats_skipMember fun _ => nothing
  refine .behind settles_nextSpan.forward (fun _ => settles_nextSpan.repeats) fun start => ?_
  refine .behind_same (repeats_eat .semicolon) fun empty => .ite (fun _ => nothing) fun _ => ?_
  refine .behind forward_attributeLists (fun _ => repeats_attributeLists) fun lists => ?_
  refine .behind forward_modifiers (fun _ => repeats_modifiers) fun words => ?_
  refine .behind_same repeats_atTypeKeyword fun isType => .ite (fun _ => ?_) fun _ => ?_
  · refine Follows.bind ((follow start lists words).mono (fun _ => id)
      fun among _ => ⟨⟨among.context.context.context, among.context.context.value,
        among.context.value, among.value, among.context.same, among.same⟩, rfl, Nat.le_refl _⟩)
      fun decl => ?_
    refine follows_pure (fun _ among => ?_) fun _ => ?_
    · exact congrArg (fun decl => some (TypeMember.type decl)) among.same
    · rfl
  refine .behind_same repeats_atSkippedMember fun isSkipped => .ite (fun _ => skipped) fun _ => ?_
  refine .behind (forward_method? start lists words)
    (fun among => repeats_method? among.context.same among.same) fun found => ?_
  refine follows_pure (fun isOther among => ?_) fun _ => by cases found <;> rfl
  obtain ⟨context, found', same⟩ := among
  cases found with
  | none =>
      obtain rfl := Option.map_eq_none_iff.mp same
      rfl
  | some method => exact absurd rfl (isOther method)

/-- What is seen in front of a type and a name. -/
private theorem peek?_of_named {written rest : List Token} {word name : String}
    {more : List TokenKind} (isWritten : written.map (·.kind) = .ident word :: more)
    (named : rest.head?.map (·.kind) = some (.ident name)) {cursor : Cursor}
    (remaining : cursor.remaining = written ++ rest) :
    cursor.peek? 0 = some (.ident word) ∧
      cursor.peek? 1 = (more.head?).or (some (.ident name)) := by
  obtain ⟨first, others, rfl, kind, isMore⟩ := List.map_eq_cons_iff.mp isWritten
  obtain ⟨previous, tokens, recorded⟩ := cursor
  obtain rfl : tokens = first :: (others ++ rest) := remaining
  refine ⟨congrArg some kind, ?_⟩
  rw [Cursor.peek?_one_cons, ← isMore]
  cases others with
  | nil => simpa using named
  | cons second others => rfl

/-- In front of a name, a type that begins plainly is taken neither for modifiers nor for
the beginning of another member. -/
private theorem plain_of_written {written rest : List Token} {type : TypeExpr}
    (plain : BeginsPlainly (written.map (·.kind)))
    (spells : Spells (written.map (·.kind)) (.type type)) {name : String}
    (named : rest.head?.map (·.kind) = some (.ident name)) {cursor : Cursor}
    (remaining : cursor.remaining = written ++ rest) :
    cursor.EndsWords ∧ cursor.beginsType = false ∧ cursor.beginsSkipped = false ∧
      ∃ word, cursor.peek? 0 = some (.ident word) := by
  obtain ⟨word, more, isWritten, noModifier, noType, noOther, noRecord⟩ := plain
  obtain ⟨isFirst, isSecond⟩ := peek?_of_named isWritten named remaining
  have noList : cursor.peek? 1 ≠ some (.mark .leftParen) := by
    have begins : BeginsWell (written.map (·.kind)) := spells.beginsWell
    rw [isWritten] at begins
    obtain ⟨first, behind, same, noParen⟩ | ⟨behind, same⟩ := begins
    · obtain ⟨-, rfl⟩ := List.cons.inj same
      rw [isSecond]
      cases isMore : more.head? with
      | none => simp
      | some kind => simpa [isMore] using noParen
    · cases same
  refine ⟨fun other isWord modifies => ?_, ?_, ?_, word, isFirst⟩
  · rw [isFirst] at isWord
    obtain rfl : word = other := Option.some.inj isWord
    exact absurd modifies noModifier
  · simp only [Cursor.beginsType, isFirst, Option.bind_some, TokenKind.ident?]
    split
    · next is => exact absurd (Option.some.inj is) (by rintro rfl; simp at noType)
    · next is => exact absurd (Option.some.inj is) (by rintro rfl; simp at noType)
    · next is => exact absurd (Option.some.inj is) (by rintro rfl; simp at noType)
    · next is => exact absurd (Option.some.inj is) (by rintro rfl; simp at noType)
    · next is =>
      obtain ⟨second, behind, rfl, noIdent⟩ := noRecord (Option.some.inj is)
      simp [isSecond, noIdent]
    · rfl
  · simp [Cursor.beginsSkipped, isFirst, TokenKind.ident?, noList]
    simpa using noOther

/-- What is taken neither for modifiers nor for the beginning of another member begins
plainly, or with a parenthesis. -/
private theorem plain_of_read {written rest : List Token} {type : TypeExpr}
    (spells : Spells (written.map (·.kind)) (.type type)) {name : String}
    (named : rest.head?.map (·.kind) = some (.ident name)) {cursor : Cursor}
    (remaining : cursor.remaining = written ++ rest) (ends : cursor.EndsWords)
    (noType : cursor.beginsType = false) (noOther : cursor.beginsSkipped = false) :
    BeginsPlainly (written.map (·.kind)) ∨
      (written.map (·.kind)).head? = some (.mark .leftParen) := by
  have begins : BeginsWell (written.map (·.kind)) := spells.beginsWell
  obtain ⟨word, more, isWritten, -⟩ | ⟨behind, isWritten⟩ := begins
  · obtain ⟨isFirst, isSecond⟩ := peek?_of_named isWritten named remaining
    simp only [Cursor.beginsSkipped, isFirst, Option.bind_some, TokenKind.ident?,
      Option.isSome_some, Bool.true_and, Bool.or_eq_false_iff, beq_eq_false_iff_ne,
      Option.any_some, List.contains_eq_mem, decide_eq_false_iff_not] at noOther
    refine .inl ⟨word, more, isWritten, fun modifies => ?_, fun begins => ?_, noOther.2,
      fun isRecord => ?_⟩
    · exact noOther.1.1 (ends word (by rw [isFirst]; rfl) modifies)
    · have : cursor.beginsType = true := by
        simp only [Cursor.beginsType, isFirst, Option.bind_some, TokenKind.ident?]
        simp only [List.mem_cons, List.not_mem_nil, or_false] at begins
        obtain rfl | rfl | rfl | rfl := begins <;> rfl
      rw [noType] at this
      cases this
    · obtain rfl := isRecord
      have noIdent : (cursor.peek? 1).any TokenKind.isIdent = false := by
        simpa only [Cursor.beginsType, isFirst, Option.bind_some, TokenKind.ident?] using noType
      rw [isSecond] at noIdent
      cases more with
      | nil => cases noIdent
      | cons kind behind => exact ⟨kind, behind, rfl, noIdent⟩
  · exact .inr (by rw [isWritten]; rfl)

/-- What a member that is read as a method consists of. -/
structure Parts (file : SourceFile) (cursor later : Cursor) (method : MethodDecl) where
  behindLists : Cursor
  behindWords : Cursor
  behindType : Cursor
  noEmpty : cursor.peek? 0 ≠ some (.mark .semicolon)
  lists_read : attributeLists file cursor = .ok method.attributeLists behindLists
  words_read : modifiers file behindLists = .ok method.modifiers behindWords
  noType : behindWords.beginsType = false
  noOther : behindWords.beginsSkipped = false
  type_read : type file behindWords = .ok method.returnType behindType
  tail_read : methodTail file behindType =
    .ok (some ⟨method.name, method.nameSpan, method.typeParameters, method.body⟩) later

theorem exists_parts {file : SourceFile} {cursor later : Cursor} {method : MethodDecl}
    (run : typeMember nested file cursor = .ok (some (.method method)) later) :
    Nonempty (Parts file cursor later method) ∧
      method.span = later.spanFrom (cursor.nextSpan file) := by
  rw [typeMember_apply] at run
  split at run
  · cases run
  next noEmpty =>
  cases listsRead : attributeLists file cursor with
  | error diagnostic reached => simp [listsRead] at run
  | ok lists behindLists =>
  simp only [listsRead] at run
  cases wordsRead : modifiers file behindLists with
  | error diagnostic reached => simp [wordsRead] at run
  | ok words behindWords =>
  simp only [wordsRead] at run
  split at run
  · cases decl : nested (cursor.nextSpan file) lists words file behindWords <;> simp [decl] at run
  next noType =>
  split at run
  · rw [bind_apply] at run
    cases skip : skipMember file behindWords <;> simp [skip] at run
  next noOther =>
  rw [method?_apply] at run
  cases typeRead : type file behindWords with
  | error diagnostic reached =>
      simp only [typeRead, bind_apply] at run
      cases skip : skipMember file behindWords <;> simp [skip] at run
  | ok returnType behindType =>
  cases tailRead : methodTail file behindType with
  | error diagnostic reached => simp [typeRead, tailRead] at run
  | ok tail ended =>
  cases tail with
  | none => simp [typeRead, tailRead] at run
  | some tail =>
  simp only [typeRead, tailRead, Option.map_some, EStateM.Result.ok.injEq, Option.some.injEq,
    TypeMember.method.injEq] at run
  obtain ⟨rfl, rfl⟩ := run
  exact ⟨⟨behindLists, behindWords, behindType, noEmpty, listsRead, wordsRead,
    by simpa using noType, by simpa using noOther, typeRead, tailRead⟩, rfl⟩

/-- A member that consists of the parts of a method is read as this method. -/
theorem Parts.read {file : SourceFile} {cursor later : Cursor} {method : MethodDecl}
    (parts : Parts file cursor later method) :
    typeMember nested file cursor =
      .ok (some (.method { method with span := later.spanFrom (cursor.nextSpan file) })) later := by
  rw [typeMember_apply, if_neg parts.noEmpty, parts.lists_read]
  simp only [parts.words_read, parts.noType, parts.noOther, method?_apply, parts.type_read,
    parts.tail_read]
  rfl

/-- The tokens of the parts of a method, and how they are read again. -/
private structure Parts.Division {file : SourceFile} {cursor later : Cursor} {method : MethodDecl}
    (parts : Parts file cursor later method) where
  lists : List Token
  words : List Token
  types : List Token
  names : List Token
  list : List Token
  clauses : List Token
  opening : Token
  inside : List Token
  ending : List Token
  passedLists : cursor.remaining = lists ++ parts.behindLists.remaining
  passedWords : parts.behindLists.remaining = words ++ parts.behindWords.remaining
  passedType : parts.behindWords.remaining = types ++ parts.behindType.remaining
  passedTail : parts.behindType.remaining =
    (names ++ (list ++ clauses)) ++ (opening :: (inside ++ (ending ++ later.remaining)))
  noList : parts.behindLists.peek? 0 ≠ some (.mark .leftBracket)
  areWords : ∀ token ∈ words, token.IsModifier
  kindsOfWords : words.map (·.kind) =
    method.modifiers.map fun modifier => TokenKind.ident modifier.keyword
  endsWords : parts.behindWords.EndsWords
  spells : Spells (types.map (·.kind)) (.type method.returnType.unplaced)
  headed : HeadTokens method.nameSpan names list clauses
  bodied : BodyTokens (later.peek? 0) method.body opening inside ending
  listsAgain : Rereads attributeLists (List.map AttributeList.unplaced)
    (fun there => there.peek? 0 ≠ some (.mark .leftBracket)) file lists method.attributeLists
  wordsAgain : Rereads modifiers (List.map (·.keyword)) parts.behindWords.SameNext file words
    method.modifiers
  tailAgain : RefillsTail file (later.peek? 0) (names ++ (list ++ clauses)) opening inside ending
    ⟨method.name, method.nameSpan, method.typeParameters, method.body⟩

/-- The tokens of a method that is divided into its parts. -/
private def Parts.Division.tokens {file : SourceFile} {cursor later : Cursor} {method : MethodDecl}
    {parts : Parts file cursor later method} (division : parts.Division) : MethodTokens where
  before := division.lists ++ division.words
  type := division.types
  names := division.names
  list := division.list
  clauses := division.clauses
  opening := division.opening
  body := division.inside
  ending := division.ending
  decl := method

/-- The parts of a method that is read without a diagnostic have tokens that are read
again elsewhere. -/
private theorem Parts.exists_division {file : SourceFile} {cursor later : Cursor}
    {method : MethodDecl} (parts : Parts file cursor later method)
    (silent : later.recorded = cursor.recorded) : Nonempty parts.Division := by
  have tailRepeats : Repeats methodTail methodTail (Option.map MethodTail.unplaced) :=
    repeats_methodTail
  have reachesLists := forward_attributeLists.of_ok parts.lists_read
  have reachesWords := forward_modifiers.of_ok parts.words_read
  have reachesType := forward_type.of_ok parts.type_read
  have reachesEnd := tailRepeats.forward.of_ok parts.tail_read
  obtain ⟨silentLists, silent⟩ :=
    reachesLists.recorded_eq (reachesWords.trans (reachesType.trans reachesEnd)) silent
  obtain ⟨silentWords, silent⟩ := reachesWords.recorded_eq (reachesType.trans reachesEnd) silent
  obtain ⟨-, silentTail⟩ := reachesType.recorded_eq reachesEnd silent
  obtain ⟨noList, lists, passedLists, listsAgain⟩ :=
    rereads_attributeLists parts.lists_read silentLists
  obtain ⟨words, passedWords, areWords, kindsOfWords, endsWords⟩ :=
    words_of_modifiers parts.words_read
  obtain ⟨others, alsoPassed, wordsAgain⟩ := repeats_modifiers.rereads file parts.behindLists
    parts.behindWords _ parts.words_read silentWords trivial
  obtain rfl : others = words := List.append_cancel_right (alsoPassed.symm.trans passedWords)
  obtain ⟨types, passedType, spells⟩ := type_spelled parts.type_read
  obtain ⟨names, list, clauses, opening, inside, ending, passedTail, headed, bodied, tailAgain⟩ :=
    tokens_of_methodTail parts.tail_read silentTail
  exact ⟨⟨lists, others, types, names, list, clauses, opening, inside, ending, passedLists,
    passedWords, passedType, passedTail, noList, areWords, kindsOfWords, endsWords, spells, headed,
    bodied, listsAgain, wordsAgain, tailAgain⟩⟩

section Places

variable {file : SourceFile} {cursor later : Cursor} {method : MethodDecl}
  {parts : Parts file cursor later method}

private theorem Parts.Division.passed (division : parts.Division) :
    cursor.remaining = division.tokens.tokens ++ later.remaining := by
  rw [division.passedLists, division.passedWords, division.passedType, division.passedTail]
  simp [MethodTokens.tokens, MethodTokens.tail, MethodTokens.head, Parts.Division.tokens]

/-- What has been passed last. -/
private theorem previous_of_passed {here there : Cursor} (reached : here.Reaches there)
    {tokens : List Token} (passed : here.remaining = tokens ++ there.remaining) :
    there.previous = tokens.getLast?.or here.previous := by
  obtain ⟨others, alsoPassed, previous⟩ := reached.passed
  obtain rfl : others = tokens := List.append_cancel_right (alsoPassed.symm.trans passed)
  rw [previous, Token.lastOf_eq]

/-- A span from one token to another one. -/
private theorem spanFrom_of_passed {here there : Cursor} (reached : here.Reaches there)
    {tokens : List Token} (passed : here.remaining = tokens ++ there.remaining) {first last : Token}
    (isFirst : tokens.head? = some first) (isLast : tokens.getLast? = some last)
    (inOrder : first.span.start.offset ≤ last.span.stop.offset) :
    there.spanFrom (here.nextSpan file) = first.span.merge last.span := by
  have start : here.nextSpan file = first.span := by
    obtain ⟨others, rfl⟩ := List.head?_eq_some_iff.mp isFirst
    rw [Cursor.nextSpan, passed]
    rfl
  rw [start, Cursor.spanFrom, previous_of_passed reached passed, isLast]
  exact if_pos inOrder

/-- What stands in front of the return type of a method with attributes. -/
private theorem Parts.Division.apart (division : parts.Division)
    (marked : method.attributeLists ≠ []) :
    ∃ last, (division.lists ++ division.words).getLast? = some last ∧
      (last.kind = .mark .rightBracket ∨ last.kind.isIdent = true) := by
  obtain ⟨begins, ends⟩ := brackets_of_attributeLists parts.lists_read marked
  by_cases isEmpty : division.words = []
  · have reached := forward_attributeLists.of_ok parts.lists_read
    rw [previous_of_passed reached division.passedLists] at ends
    have some : division.lists ≠ [] := by
      intro nothing
      rw [Cursor.peek?, division.passedLists, nothing] at begins
      exact division.noList begins
    rw [List.getLast?_eq_some_getLast some] at ends
    refine ⟨division.lists.getLast some, ?_, .inl (Option.some.inj ends)⟩
    rw [isEmpty, List.append_nil, List.getLast?_eq_some_getLast some]
  · obtain ⟨keyword, -, kind⟩ := division.areWords _ (List.getLast_mem isEmpty)
    refine ⟨division.words.getLast isEmpty, ?_, .inr ?_⟩
    · rw [List.getLast?_append, List.getLast?_eq_some_getLast isEmpty]
      rfl
    · rw [kind]
      rfl

/-- A method is where it says. -/
private theorem Parts.Division.isPlaced (division : parts.Division)
    (spanned : method.span = later.spanFrom (cursor.nextSpan file)) :
    division.tokens.IsPlaced (later.remaining.head?.map (·.kind)) := by
  have tailRepeats : Repeats methodTail methodTail (Option.map MethodTail.unplaced) :=
    repeats_methodTail
  have reachesType := forward_type.of_ok parts.type_read
  have reached := (forward_attributeLists.of_ok parts.lists_read).trans
    ((forward_modifiers.of_ok parts.words_read).trans
      (reachesType.trans (tailRepeats.forward.of_ok parts.tail_read)))
  have bodied := division.bodied
  rw [Cursor.peek?, ← List.head?_eq_getElem?] at bodied
  refine ⟨division.apart, division.spells, fun first last isFirst isLast inOrder => ?_,
    division.headed, bodied, fun first last isFirst isLast inOrder => ?_⟩
  · exact (span_type parts.type_read).trans
      (spanFrom_of_passed reachesType division.passedType isFirst isLast inOrder)
  · refine spanned.trans (spanFrom_of_passed reached division.passed isFirst ?_ inOrder)
    rw [MethodTokens.tokens, List.getLast?_append, List.getLast?_append, isLast]
    rfl

end Places

/-- Modifiers that were read are read again in front of what is none. -/
private theorem modifiers_of_copies {file other : SourceFile} {words copies rest : List Token}
    {modifiers : List Modifier} (areWords : ∀ token ∈ words, token.IsModifier)
    (kinds : words.map (·.kind) = modifiers.map fun modifier => .ident modifier.keyword)
    (alike : Token.Alike file words other copies) (previous : Option Token)
    (recorded : List Diagnostic)
    (ends : (Cursor.mk (Token.lastOf previous copies) rest recorded).EndsWords)
    (behind : rest.head?.map (·.kind) ≠ some (.mark .leftParen)) :
    (∀ token ∈ copies, token.IsModifier) ∧
      ∃ read, read.map (·.keyword) = modifiers.map (·.keyword) ∧
        Parser.modifiers other ⟨previous, copies ++ rest, recorded⟩ =
          .ok read ⟨Token.lastOf previous copies, rest, recorded⟩ := by
  have areCopied : ∀ token ∈ copies, token.IsModifier := by
    intro token member
    have isKind : token.kind ∈ words.map (·.kind) := by
      rw [← alike.kinds]
      exact List.mem_map_of_mem member
    obtain ⟨word, isWord, same⟩ := List.mem_map.mp isKind
    obtain ⟨keyword, known, kind⟩ := areWords word isWord
    exact ⟨keyword, known, same.symm.trans kind⟩
  obtain ⟨read, kindsAgain, run⟩ :=
    modifiers_of_words other areCopied previous recorded ends fun _ => behind
  refine ⟨areCopied, read, ?_, run⟩
  refine List.map_inj_right (f := TokenKind.ident) (fun _ _ => TokenKind.ident.inj) |>.mp ?_
  rw [List.map_map, List.map_map]
  exact kindsAgain.trans (alike.kinds.trans kinds)

/-- What stands in front of the return type of a method is read again in front of a type,
and the member is taken for a method. -/
private structure ReadsFront (other : SourceFile) (previous : Option Token)
    (copiesLists copiesWords typed : List Token) (recorded : List Diagnostic)
    (method : MethodDecl) : Prop where
  noEmpty : (Cursor.mk previous (copiesLists ++ (copiesWords ++ typed)) recorded).peek? 0 ≠
    some (.mark .semicolon)
  noList : (Cursor.mk (Token.lastOf previous copiesLists) (copiesWords ++ typed) recorded).peek? 0 ≠
    some (.mark .leftBracket)
  words : ∃ read, read.map (·.keyword) = method.modifiers.map (·.keyword) ∧
    modifiers other ⟨Token.lastOf previous copiesLists, copiesWords ++ typed, recorded⟩ =
      .ok read ⟨Token.lastOf (Token.lastOf previous copiesLists) copiesWords, typed, recorded⟩
  noType : (Cursor.mk (Token.lastOf (Token.lastOf previous copiesLists) copiesWords) typed
    recorded).beginsType = false
  noOther : (Cursor.mk (Token.lastOf (Token.lastOf previous copiesLists) copiesWords) typed
    recorded).beginsSkipped = false

section Fronts

variable {file other : SourceFile} {cursor later : Cursor} {method : MethodDecl}
  {parts : Parts file cursor later method} {previous : Option Token}
  {copiesLists copiesWords written behind : List Token} {recorded : List Diagnostic}

/-- In front of the type that was there, the front is read as it was. -/
private theorem Parts.Division.front_of_kept (division : parts.Division)
    (alikeLists : Token.Alike file division.lists other copiesLists)
    (alikeWords : Token.Alike file division.words other copiesWords)
    (alikeType : Token.Alike file division.types other written)
    (inFront : parts.behindType.SameNext ⟨Token.lastOf (Token.lastOf (Token.lastOf previous
      copiesLists) copiesWords) written, behind, recorded⟩) :
    cursor.SameNext ⟨previous, copiesLists ++ (copiesWords ++ (written ++ behind)), recorded⟩ ∧
      ReadsFront other previous copiesLists copiesWords (written ++ behind) recorded method := by
  have typed : parts.behindWords.SameNext ⟨Token.lastOf (Token.lastOf previous copiesLists)
      copiesWords, written ++ behind, recorded⟩ :=
    alikeType.sameNext inFront division.passedType rfl
  have worded : parts.behindLists.SameNext
      ⟨Token.lastOf previous copiesLists, copiesWords ++ (written ++ behind), recorded⟩ :=
    alikeWords.sameNext typed division.passedWords rfl
  have whole : cursor.SameNext
      ⟨previous, copiesLists ++ (copiesWords ++ (written ++ behind)), recorded⟩ :=
    alikeLists.sameNext worded division.passedLists rfl
  refine ⟨whole, ?_, ?_, ?_, ?_, ?_⟩
  · rw [whole.first]
    exact parts.noEmpty
  · rw [worded.first]
    exact division.noList
  · exact division.wordsAgain other _ copiesWords _ recorded alikeWords typed
  · rw [beginsType_of_sameNext typed]
    exact parts.noType
  · rw [beginsSkipped_of_sameNext typed]
    exact parts.noOther

/-- The bracket of an attribute list is all that is seen of a method with attributes. -/
private theorem Parts.Division.bracket (division : parts.Division)
    (marked : method.attributeLists ≠ []) :
    ∃ bracket others, division.lists = bracket :: others ∧ bracket.kind = .mark .leftBracket := by
  obtain ⟨begins, -⟩ := brackets_of_attributeLists parts.lists_read marked
  rw [Cursor.peek?, division.passedLists] at begins
  cases isLists : division.lists with
  | cons bracket others =>
      rw [isLists] at begins
      exact ⟨bracket, others, rfl, Option.some.inj begins⟩
  | nil =>
      rw [isLists] at begins
      exact absurd begins division.noList

/-- In front of a given type, the front is read as it was if the exchange fits. -/
private theorem Parts.Division.front_of_given (division : parts.Division) (fits : exchange.Fits)
    {given : TypeExpr} (gives : exchange method = some given)
    (alikeLists : Token.Alike file division.lists other copiesLists)
    (alikeWords : Token.Alike file division.words other copiesWords)
    (spellsGiven : Spells (written.map (·.kind)) (.type given.unplaced))
    (inFront : parts.behindType.SameNext ⟨Token.lastOf (Token.lastOf (Token.lastOf previous
      copiesLists) copiesWords) written, behind, recorded⟩) :
    cursor.SameNext ⟨previous, copiesLists ++ (copiesWords ++ (written ++ behind)), recorded⟩ ∧
      ReadsFront other previous copiesLists copiesWords (written ++ behind) recorded method := by
  obtain ⟨⟨name, named⟩, -⟩ := passesName_of_methodTail parts.tail_read
  have namedHere : parts.behindType.remaining.head?.map (·.kind) = some (.ident name) := by
    rw [← named, Cursor.peek?, List.head?_eq_getElem?]
  have namedThere : behind.head?.map (·.kind) = some (.ident name) := by
    rw [← named, ← inFront.first, Cursor.peek?, List.head?_eq_getElem?]
  have plain := plain_of_read division.spells namedHere division.passedType division.endsWords
    parts.noType parts.noOther
  let typed : Cursor := ⟨Token.lastOf (Token.lastOf previous copiesLists) copiesWords,
    written ++ behind, recorded⟩
  have ahead : typed.remaining = written ++ behind := rfl
  obtain ⟨endsAgain, noTypeAgain, noOtherAgain, word, isWord⟩ := plain_of_written
    (fits.begins method given _ _ gives division.spells plain spellsGiven) spellsGiven namedThere
    ahead
  have noParen : (written ++ behind).head?.map (·.kind) ≠ some (.mark .leftParen) := by
    rw [Cursor.peek?, ← List.head?_eq_getElem?] at isWord
    rw [isWord]
    simp
  obtain ⟨areCopied, words, sameWords, runWords⟩ := modifiers_of_copies division.areWords
    division.kindsOfWords alikeWords (Token.lastOf previous copiesLists) recorded endsAgain noParen
  obtain ⟨bracket, others, isLists, isBracket⟩ := division.bracket (fits.marked method given gives)
  obtain ⟨copy, more, rfl, kind, -⟩ := (isLists ▸ alikeLists).of_cons
  refine ⟨?_, ?_, ?_, ⟨words, sameWords, runWords⟩, noTypeAgain, noOtherAgain⟩
  · have begins : cursor.remaining = bracket :: (others ++ parts.behindLists.remaining) := by
      rw [division.passedLists, isLists]
      rfl
    exact .of_kind (by rw [isBracket]; rfl) kind begins rfl
  · simp [Cursor.peek?, kind, isBracket]
  · cases copiesWords with
    | nil =>
        intro isList
        cases isWord.symm.trans isList
    | cons copy copies =>
        obtain ⟨keyword, -, kind⟩ := areCopied copy List.mem_cons_self
        simp [Cursor.peek?, kind]

end Fronts

/-- The type that a method is given, or its own, is spelled in its place. -/
private theorem Parts.Division.spelled {file other : SourceFile} {cursor later : Cursor}
    {method : MethodDecl} {parts : Parts file cursor later method} (division : parts.Division)
    {written : List Token} (typed : division.tokens.TypeBecomes exchange file other written) :
    Spells (written.map (·.kind)) (.type (method.exchanged exchange).returnType.unplaced) := by
  cases typed with
  | kept keeps alike =>
      have isKept : method.exchanged exchange = method := by
        have keeps : exchange method = none := keeps
        rw [MethodDecl.exchanged, keeps]
        rfl
      have kinds : written.map (·.kind) = division.types.map (·.kind) := alike.kinds
      rw [isKept, kinds]
      exact division.spells
  | given gives spells =>
      have gives : exchange method = some _ := gives
      rw [MethodDecl.exchanged, gives]
      exact spells

/-- A method whose return type is kept or exchanged, and whose body is kept or replaced, is
read as it was, with the new return type. -/
private theorem Parts.Division.read_again (fits : exchange.Fits) {file other : SourceFile}
    {cursor later : Cursor} {method : MethodDecl} {parts : Parts file cursor later method}
    (division : parts.Division) {previous : Option Token} {copies rest : List Token}
    {recorded : List Diagnostic}
    (becomes : Stretch.Becomes exchange file other (.method division.tokens) copies)
    (inFront : later.SameNext ⟨Token.lastOf previous copies, rest, recorded⟩) :
    cursor.SameNext ⟨previous, copies ++ rest, recorded⟩ ∧
      ∃ value, (memberRegard exchange).view value =
          (memberRegard exchange).after (some (.method method)) ∧
        ∀ nested, typeMember nested other ⟨previous, copies ++ rest, recorded⟩ =
          .ok value ⟨Token.lastOf previous copies, rest, recorded⟩ := by
  cases becomes with
  | @method _ front written start filling closing copy alikeBefore typed alikeHead opens fills
      closes =>
  have alikeFront : Token.Alike file (division.lists ++ division.words) other front := alikeBefore
  obtain ⟨copiesLists, copiesWords, rfl, alikeLists, alikeWords⟩ := alikeFront.of_append
  let behind : List Token := start ++ (copy :: (filling ++ (closing ++ rest)))
  have isWhole :
      copiesLists ++ copiesWords ++ (written ++ (start ++ copy :: (filling ++ closing))) ++
      rest = copiesLists ++ (copiesWords ++ (written ++ behind)) := by
    simp [behind]
  rw [isWhole]
  let typedAt := Token.lastOf (Token.lastOf previous copiesLists) copiesWords
  let tailAt := Token.lastOf typedAt written
  have seen : parts.behindType.SameNext ⟨tailAt, behind, recorded⟩ := by
    have opened : Cursor.SameNext ⟨none, division.opening :: (division.inside ++
        (division.ending ++ later.remaining)), []⟩
        ⟨none, copy :: (filling ++ (closing ++ rest)), []⟩ :=
      .of_kind division.bodied.looksFurther opens rfl rfl
    exact alikeHead.sameNext opened division.passedTail rfl
  obtain ⟨whole, reads⟩ : cursor.SameNext
      ⟨previous, copiesLists ++ (copiesWords ++ (written ++ behind)), recorded⟩ ∧
        ReadsFront other previous copiesLists copiesWords (written ++ behind) recorded method := by
    cases typed with
    | kept _ alike => exact division.front_of_kept alikeLists alikeWords alike seen
    | given gives spells =>
        exact division.front_of_given fits gives alikeLists alikeWords spells seen
  -- the name behind the type ends it
  have ended : (Cursor.mk tailAt behind recorded).EndsType := by
    obtain ⟨⟨name, named⟩, -⟩ := passesName_of_methodTail parts.tail_read
    exact .of_kind (seen.first.trans named) (.inr (.inr (.inr rfl)))
  obtain ⟨lists, sameLists, runLists⟩ := division.listsAgain other previous copiesLists
    (copiesWords ++ (written ++ behind)) recorded alikeLists reads.noList
  obtain ⟨words, sameWords, runWords⟩ := reads.words
  obtain ⟨type, sameType, runType⟩ := rereads_type (division.spelled typed) other typedAt written
    behind recorded (.refl other written) ended
  obtain ⟨tail, sameTail, runTail⟩ :=
    division.tailAgain other tailAt start copy filling closing rest
    recorded alikeHead opens fills closes (by
      rw [← inFront.first, Cursor.peek?, List.head?_eq_getElem?])
  have isLast : Token.lastOf tailAt (start ++ copy :: (filling ++ closing)) =
      Token.lastOf previous (copiesLists ++ copiesWords ++
        (written ++ (start ++ copy :: (filling ++ closing)))) := by
    simp only [Token.lastOf_append, tailAt, typedAt]
  rw [isLast] at runTail
  let read : MethodDecl := ⟨.nowhere, lists, words, type, tail.name, tail.nameSpan,
    tail.typeParameters, tail.body⟩
  have partsAgain : Parts other
      ⟨previous, copiesLists ++ (copiesWords ++ (written ++ behind)), recorded⟩ _ read :=
    ⟨_, _, _, reads.noEmpty, runLists, runWords, reads.noType, reads.noOther, runType, runTail⟩
  refine ⟨whole, _, ?_, fun nested => partsAgain.read⟩
  exact congrArg (fun decl => some (TypeMember.method decl))
    (unplaced_of_parts sameLists sameWords sameType sameTail)

/-- A member is read as it was, with the return types of its methods exchanged. -/
theorem follows_typeMember (fits : exchange.Fits)
    (follow : NestedFollow exchange bound nested nestedAgain) :
    Follows exchange bound anyValue (typeMember nested)
      (fun context => typeMember (nestedAgain context)) [] (memberRegard exchange) := by
  have others := follows_otherMember follow
  refine ⟨others.forward, fun file cursor later member run silent _ => ?_⟩
  have asBefore := others.carried file cursor later member run silent
  cases member with
  | none => exact asBefore fun method isMethod => by cases isMethod
  | some member =>
  cases member with
  | type decl =>
      have sameFound : (memberRegard exchange).found (some (.type decl)) =
          (nestedRegard exchange).found (some (.type decl)) := List.append_nil decl.methods
      rw [sameFound]
      exact asBefore fun method isMethod => by cases isMethod
  | method method =>
      obtain ⟨⟨parts⟩, spanned⟩ := exists_parts run
      obtain ⟨division⟩ := parts.exists_division silent
      refine ⟨[.method division.tokens], ?_, .method (division.isPlaced spanned) .nil, rfl, ?_, ?_⟩
      · rw [Stretch.tokensOf_cons, Stretch.tokensOf_nil, List.append_nil]
        exact division.passed
      · intro other previous copies rest recorded rewritten inFront
        exact (division.read_again fits rewritten.of_method inFront).1
      · intro context other previous copies rest recorded rewritten _ inFront
        obtain ⟨-, value, same, run⟩ := division.read_again fits rewritten.of_method inFront
        exact ⟨value, same, run _⟩

end Members

end Parser

end ErrorAccessors
