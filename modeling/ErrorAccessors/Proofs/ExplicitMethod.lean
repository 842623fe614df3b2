/-
# Methods that name their interface

A method can say which interface it is written for: the name of the interface stands in
front of its own name, with a dot behind each of its parts, and the parts can have type
arguments.

These arguments are types, but they are read as if they were type parameters, that is,
words.  If each of them is a single word, such as `int` or the name of a type without
further parts, nothing is wrong with that, and the method is read as it is written.  Any
other list of types has an argument that goes on behind its first word, begins with a
parenthesis or is left out, and there the reader of type parameters gives up.  The member
is then reported instead of being read.
-/

import ErrorAccessors.Proofs.DelimitedOutline
import ErrorAccessors.Proofs.PassingMembers

namespace ErrorAccessors

open ErrorAccessors.Parser

section Arguments

/-- How a type begins, as far as a reader of words is concerned: it is a single word, or a
word that something else of the type stands behind, or it begins with a parenthesis. -/
inductive BeginsShort : List TokenKind → Prop
  | word (name : String) : BeginsShort [.ident name]
  | further (name : String) {mark : Mark} (more : List TokenKind)
      (continues : mark ∈ continuingMarks) : BeginsShort (.ident name :: .mark mark :: more)
  | paren (more : List TokenKind) : BeginsShort (.mark .leftParen :: more)

theorem BeginsShort.append {kinds : List TokenKind} (begins : BeginsShort kinds) {mark : Mark}
    (continues : mark ∈ continuingMarks) (more : List TokenKind) :
    BeginsShort (kinds ++ .mark mark :: more) := by
  cases begins with
  | word name => exact .further name more continues
  | further name others isFurther => exact .further name _ isFurther
  | paren others => exact .paren _

/-- What a type, a part of a name or a whole name begins with. -/
theorem Spells.beginsShort {kinds : List TokenKind} {piece : TypePiece}
    (spelled : Spells kinds piece) :
    match piece with
    | .type _ | .part _ | .segments _ => BeginsShort kinds
    | _ => True := by
  induction spelled with
  | keyword known => exact .word _
  | named isName parts ih => exact ih
  | qualified isName parts ih => exact .further _ _ (by decide)
  | tuple inner ih => exact .paren _
  | nullable inner ih => exact ih.append (by decide) _
  | pointer inner ih => exact ih.append (by decide) _
  | array commas inner ih => exact ih.append (by decide) _
  | plainPart name => exact .word name
  | genericPart name inner ih => exact .further name _ (by decide)
  | lastPart last ih => exact ih
  | moreParts first rest ihFirst ihRest => exact ihFirst.append (by decide) _
  | _ => trivial

/-- A stretch of tokens in front of a closing angle bracket which begins with words and
commas, but does not go on as a list of words. -/
inductive StopsShort : List TokenKind → Prop
  | nothing : StopsShort []
  | paren (more : List TokenKind) : StopsShort (.mark .leftParen :: more)
  | further (name : String) {mark : Mark} (more : List TokenKind)
      (continues : mark ∈ continuingMarks) : StopsShort (.ident name :: .mark mark :: more)
  | behind (name : String) {more : List TokenKind} (later : StopsShort more) :
      StopsShort (.ident name :: .mark .comma :: more)

/-- A type is a single word, or a reader of words stops short in it. -/
theorem BeginsShort.word_or_stops {kinds : List TokenKind} (begins : BeginsShort kinds) :
    (∃ name, kinds = [.ident name]) ∨ ∀ more, StopsShort (kinds ++ more) := by
  cases begins with
  | word name => exact .inl ⟨name, rfl⟩
  | further name others continues => exact .inr fun more => .further name _ continues
  | paren others => exact .inr fun more => .paren _

/-- What is taken for a further type argument without being a type is no list of words. -/
private theorem stopsShort_of_noType {kinds : List TokenKind} {piece : TypePiece}
    (spelled : Spells kinds piece) (isNone : piece = .noType) : StopsShort kinds := by
  cases spelled with
  | nothing => exact .nothing
  | qualifierOnly isName => exact .further _ _ (by decide)
  | openTuple inner => exact .paren _
  | @openArray type kinds commas inner =>
      have begins : BeginsShort kinds := inner.beginsShort
      rcases begins.word_or_stops with ⟨name, rfl⟩ | stops
      · exact .further name _ (by decide)
      · exact stops _
  | _ => cases isNone

/-- Type arguments are a list of words, or a reader of words stops short in them. -/
private theorem words_or_stopsShort {kinds : List TokenKind} {piece : TypePiece}
    (spelled : Spells kinds piece) {types : List TypeExpr} (areTypes : piece = .arguments types) :
    (∃ names ≠ [], kinds = separatedKinds (names.map fun name => [.ident name])) ∨
      StopsShort kinds := by
  induction spelled generalizing types with
  | @lastArgument type kinds last =>
      have begins : BeginsShort kinds := last.beginsShort
      rcases begins.word_or_stops with ⟨name, rfl⟩ | stops
      · exact .inl ⟨[name], List.cons_ne_nil _ _, rfl⟩
      · right
        simpa using stops []
  | @moreArguments type types kinds more first rest _ ih =>
      have begins : BeginsShort kinds := first.beginsShort
      rcases begins.word_or_stops with ⟨name, rfl⟩ | stops
      · rcases ih rfl with ⟨names, nonempty, rfl⟩ | later
        · obtain ⟨second, others, rfl⟩ := List.exists_cons_of_ne_nil nonempty
          exact .inl ⟨name :: second :: others, List.cons_ne_nil _ _, rfl⟩
        · exact .inr (.behind name later)
      · exact .inr (stops _)
  | @lastArgumentAndNoType type kinds more first rest =>
      have begins : BeginsShort kinds := first.beginsShort
      rcases begins.word_or_stops with ⟨name, rfl⟩ | stops
      · exact .inr (.behind name (stopsShort_of_noType rest rfl))
      · exact .inr (stops _)
  | _ => cases areTypes

namespace Parser

/-- The rest of a list of type parameters, behind those that have been found. -/
private def parametersBehind (found : List String) : Parser (List String) := do
  let found ← loop found parameterRound
  expect .greater
  return found

section Rounds

variable {file : SourceFile} {cursor later : Cursor} {found next : List String}

private theorem parametersBehind_of_yield
    (round : parameterRound found file cursor = .ok (.yield next) later) :
    parametersBehind found file cursor = parametersBehind next file later := by
  rw [parametersBehind, bind_apply, loop_of_yield file progresses_parameterRound round,
    ← bind_apply]
  rfl

private theorem parametersBehind_of_done
    (round : parameterRound found file cursor = .ok (.done next) later)
    (other : later.peek? 0 ≠ some (.mark .greater)) :
    parametersBehind found file cursor =
      .error (later.unexpected file ("`" ++ Mark.greater.text ++ "`")) later := by
  rw [parametersBehind, bind_apply, loop_of_done file progresses_parameterRound round]
  simp only [bind_apply, expect_apply, if_neg other]

private theorem parametersBehind_of_noName {kind : TokenKind} (next : cursor.peek? 0 = some kind)
    (noName : kind.ident? = none) (noList : kind ≠ .mark .leftBracket) :
    parametersBehind found file cursor = .error (cursor.unexpected file "identifier") cursor := by
  have fails := @parameterRound_of_noName found file cursor kind next noName noList
  rw [parametersBehind, bind_apply, loop_of_error file progresses_parameterRound fails]

end Rounds

variable (file : SourceFile) (previous : Option Token) (rest : List Token)
  (recorded : List Diagnostic)

/-- A word with a mark behind it is one round of reading type parameters. -/
private theorem round_of_word (found : List String) {name : String} {mark : Mark}
    {first second : Token} (named : first.kind = .ident name) (isMark : second.kind = .mark mark)
    (others : List Token) :
    parameterRound found file ⟨previous, first :: second :: others, recorded⟩ =
      if mark = .comma then
        .ok (.yield (found ++ [name])) ⟨some second, others, recorded⟩
      else .ok (.done (found ++ [name])) ⟨some first, second :: others, recorded⟩ := by
  let cursor : Cursor := ⟨previous, first :: second :: others, recorded⟩
  have isName : cursor.peek? 0 = some (.ident name) := congrArg some named
  have alone : (cursor.peek? 1).any TokenKind.isIdent = false := by
    simp [cursor, isMark, TokenKind.isIdent, TokenKind.ident?]
  show parameterRound found file cursor = _
  rw [parameterRound_of_name found isName alone]
  simp [cursor, isMark]

/-- Where a reader of words stops short, the reader of type parameters fails: a name is
missing, or the closing bracket is. -/
private theorem parametersBehind_of_stopsShort {kinds : List TokenKind} (stops : StopsShort kinds)
    {inner : List Token} (areKinds : inner.map (·.kind) = kinds) {closing : Token}
    (closes : closing.kind = .mark .greater) (found : List String) :
    ∃ diagnostic later,
      parametersBehind found file ⟨previous, inner ++ closing :: rest, recorded⟩ =
        .error diagnostic later := by
  induction stops generalizing previous inner found with
  | nothing =>
      obtain rfl := List.map_eq_nil_iff.mp areKinds
      exact ⟨_, _, parametersBehind_of_noName (congrArg some closes) rfl (by simp)⟩
  | paren more =>
      obtain ⟨opening, others, rfl, opens, -⟩ := List.map_eq_cons_iff.mp areKinds
      exact ⟨_, _, parametersBehind_of_noName (congrArg some opens) rfl (by simp)⟩
  | @further name mark more continues =>
      obtain ⟨first, others, rfl, named, areOthers⟩ := List.map_eq_cons_iff.mp areKinds
      obtain ⟨second, others, rfl, isMark, -⟩ := List.map_eq_cons_iff.mp areOthers
      have other : mark ≠ .comma ∧ mark ≠ .greater := by
        constructor
        · rintro rfl
          exact absurd continues (by decide)
        · rintro rfl
          exact absurd continues (by decide)
      have round := round_of_word file previous recorded found named isMark
        (others ++ closing :: rest)
      rw [if_neg other.1] at round
      exact ⟨_, _, parametersBehind_of_done round (by simp [isMark, other.2])⟩
  | @behind name more later ih =>
      obtain ⟨first, others, rfl, named, areOthers⟩ := List.map_eq_cons_iff.mp areKinds
      obtain ⟨comma, others, rfl, isComma, areMore⟩ := List.map_eq_cons_iff.mp areOthers
      have round := round_of_word file previous recorded found named isComma
        (others ++ closing :: rest)
      rw [if_pos rfl] at round
      obtain ⟨diagnostic, reached, fails⟩ := ih (some comma) areMore (found ++ [name])
      exact ⟨diagnostic, reached, (parametersBehind_of_yield round).trans fails⟩

/-- Type arguments that are no list of words cannot be read as type parameters. -/
private theorem typeParameters_of_stopsShort {kinds : List TokenKind} (stops : StopsShort kinds)
    {tokens : List Token}
    (areKinds : tokens.map (·.kind) = .mark .less :: (kinds ++ [.mark .greater])) :
    ∃ diagnostic later,
      typeParameters file ⟨previous, tokens ++ rest, recorded⟩ = .error diagnostic later := by
  obtain ⟨opening, behind, rfl, opens, areBehind⟩ := List.map_eq_cons_iff.mp areKinds
  obtain ⟨inner, last, rfl, areInner, isLast⟩ := List.map_eq_append_iff.mp areBehind
  obtain ⟨closing, rfl, closes⟩ := List.map_eq_singleton_iff.mp isLast
  obtain ⟨diagnostic, later, fails⟩ :=
    parametersBehind_of_stopsShort file (some opening) rest recorded stops areInner closes []
  refine ⟨diagnostic, later, ?_⟩
  have opened : expect .less file ⟨previous, opening :: (inner ++ closing :: rest), recorded⟩ =
      .ok () ⟨some opening, inner ++ closing :: rest, recorded⟩ := by
    rw [expect_apply, Cursor.peek?_zero_cons, opens, if_pos rfl]
    rfl
  have isRest :
      opening :: (inner ++ [closing]) ++ rest = opening :: (inner ++ closing :: rest) := by
    simp
  rw [isRest, typeParameters_eq, bind_apply, opened]
  exact fails

end Parser

end Arguments

/-- A part of the name of an interface, with the dot behind it.  The arguments are what the
reader of types makes of them. -/
structure NamePart (file : SourceFile) where
  nameToken : Token
  name : String
  argumentTokens : List Token
  arguments : List TypeExpr
  dotToken : Token
  name_kind : nameToken.kind = .ident name
  arguments_read : ∃ last, argumentsIfAny type file (Cursor.start argumentTokens) =
    .ok arguments ⟨last, [], []⟩
  dot_kind : dotToken.kind = .mark .dot

namespace NamePart

variable {file : SourceFile} (part : NamePart file)

/-- What is written for a part. -/
def tokens : List Token :=
  part.nameToken :: (part.argumentTokens ++ [part.dotToken])

/-- Whether each argument of a part is a single word. -/
def HasPlainArguments : Prop :=
  ∃ names, part.argumentTokens.map (·.kind) = parameterKinds names

/-- The arguments of a part are words, or a reader of words stops short in them. -/
private theorem stopsShort_of_notPlain (notPlain : ¬part.HasPlainArguments) :
    ∃ kinds, StopsShort kinds ∧
      part.argumentTokens.map (·.kind) = .mark .less :: (kinds ++ [.mark .greater]) := by
  obtain ⟨last, run⟩ := part.arguments_read
  have passes : Cursor.start part.argumentTokens ≠ ⟨last, [], []⟩ := by
    intro same
    have noTokens : part.argumentTokens = [] := congrArg Cursor.remaining same
    exact notPlain ⟨[], by rw [noTokens]; rfl⟩
  rw [argumentsIfAny_apply] at run
  by_cases opened : (Cursor.start part.argumentTokens).peek? 0 = some (.mark .less)
  · rw [if_pos opened] at run
    rcases typeArguments_spelled file forward_type
      (fun file cursor => typeWithin_spelled _ file cursor)
      opened with none | ⟨types, later, tokens, read, passed, kinds, spells, areKinds⟩
    · exact absurd (EStateM.Result.ok.inj (none.symm.trans run)).2 passes
    · cases read.symm.trans run
      obtain rfl : part.argumentTokens = tokens := by simpa [Cursor.start] using passed
      refine ⟨kinds, ?_, areKinds⟩
      rcases words_or_stopsShort spells rfl with ⟨names, nonempty, rfl⟩ | stops
      · exact absurd ⟨names, by rw [parameterKinds, if_neg nonempty, areKinds]⟩ notPlain
      · exact stops
  · rw [if_neg opened] at run
    exact absurd (EStateM.Result.ok.inj run).2 passes

section Reading

variable (previous : Option Token) {rest : List Token} (recorded : List Diagnostic)

/-- A part with plain arguments is passed in front of another part of the name. -/
theorem memberName_of_plain (isPlain : part.HasPlainArguments) {word : String}
    (named : rest.head?.map (·.kind) = some (.ident word)) :
    memberName file ⟨previous, part.tokens ++ rest, recorded⟩ =
      memberName file ⟨some part.dotToken, rest, recorded⟩ := by
  obtain ⟨names, areKinds⟩ := isPlain
  let cursor : Cursor :=
    ⟨previous, part.nameToken :: (part.argumentTokens ++ part.dotToken :: rest), recorded⟩
  let atDot : Cursor := ⟨Token.lastOf (some part.nameToken) part.argumentTokens,
    part.dotToken :: rest, recorded⟩
  have isCursor : (Cursor.mk previous (part.tokens ++ rest) recorded) = cursor := by
    simp [tokens, cursor]
  have isName : cursor.peek? 0 = some (.ident part.name) := congrArg some part.name_kind
  have isDot : atDot.peek? 0 = some (.mark .dot) := congrArg some part.dot_kind
  have isNext : atDot.peek? 1 = some (.ident word) := by
    rw [Cursor.peek?_one_cons]
    exact named
  have read : parametersIfAny [] file cursor.advance = .ok names atDot :=
    parametersIfAny_of_names areKinds (by simp [part.dot_kind])
  rw [isCursor, memberName_of_nextPart isName read isDot isNext]
  rfl

/-- At a part with other arguments the reading of a name fails. -/
theorem memberName_of_notPlain (notPlain : ¬part.HasPlainArguments) (rest : List Token) :
    ∃ diagnostic later,
      memberName file ⟨previous, part.tokens ++ rest, recorded⟩ = .error diagnostic later := by
  obtain ⟨kinds, stops, areKinds⟩ := part.stopsShort_of_notPlain notPlain
  let cursor : Cursor :=
    ⟨previous, part.nameToken :: (part.argumentTokens ++ part.dotToken :: rest), recorded⟩
  have isCursor : (Cursor.mk previous (part.tokens ++ rest) recorded) = cursor := by
    simp [tokens, cursor]
  have isName : cursor.peek? 0 = some (.ident part.name) := congrArg some part.name_kind
  have opened : cursor.advance.peek? 0 = some (.mark .less) := by
    apply Cursor.peek?_of_head
    rw [← List.head?_map, areKinds]
    rfl
  obtain ⟨diagnostic, later, fails⟩ := typeParameters_of_stopsShort file (some part.nameToken)
    (part.dotToken :: rest) recorded stops areKinds
  have fails : parametersIfAny [] file cursor.advance = .error diagnostic later := by
    rw [parametersIfAny_apply, if_pos opened]
    exact fails
  rw [isCursor]
  exact ⟨diagnostic, later, memberName_of_error isName fails⟩

end Reading

end NamePart

/-- A method as it is written, with the name of its interface in front of its own. -/
structure ExplicitMethod (file : SourceFile) extends WrittenMethod file where
  interface : NamePart file
  further : List (NamePart file)
  interface_plain : interface.name ≠ "operator" ∧ interface.name ≠ "this"

namespace ExplicitMethod

variable {file : SourceFile} (written : ExplicitMethod file)

/-- What is written behind the return type. -/
def behindType : List Token :=
  (written.interface :: written.further).flatMap NamePart.tokens ++ written.tailTokens

/-- Everything that is written. -/
def allTokens : List Token :=
  written.frontOf written.behindType

/-- Whether each type argument of the interface is a single word. -/
def HasPlainArguments : Prop :=
  ∀ part ∈ written.interface :: written.further, part.HasPlainArguments

section Names

variable (previous : Option Token) (rest : List Token) (recorded : List Diagnostic)

/-- Parts of a name in front of a name begin with a name. -/
private theorem named_of_parts (parts : List (NamePart file)) : ∃ word,
    (parts.flatMap NamePart.tokens ++ (written.tailTokens ++ rest)).head?.map (·.kind) =
      some (.ident word) := by
  cases parts with
  | nil => exact ⟨written.name, congrArg some written.name_kind⟩
  | cons part parts => exact ⟨part.name, congrArg some part.name_kind⟩

/-- Parts with plain arguments are passed, and then the method's own name is read. -/
private theorem memberName_of_parts {parts : List (NamePart file)}
    (arePlain : ∀ part ∈ parts, part.HasPlainArguments) : ∃ nameSpan,
    memberName file
        ⟨previous, parts.flatMap NamePart.tokens ++ (written.tailTokens ++ rest), recorded⟩ =
      .ok (written.name, nameSpan, written.typeParameters)
        ⟨Token.lastOf (some written.nameToken) written.parameterTokens,
          written.listTokens ++ (written.bodyTokens ++ rest), recorded⟩ := by
  induction parts generalizing previous with
  | nil => exact written.name_again previous rest recorded
  | cons part parts ih =>
      obtain ⟨isPlain, othersPlain⟩ := List.forall_mem_cons.mp arePlain
      obtain ⟨word, named⟩ := written.named_of_parts rest parts
      obtain ⟨nameSpan, read⟩ := ih (some part.dotToken) othersPlain
      refine ⟨nameSpan, ?_⟩
      rw [List.flatMap_cons, List.append_assoc,
        part.memberName_of_plain previous recorded isPlain named, read]

/-- At the first part with other arguments the reading of the name fails. -/
private theorem memberName_of_notPlain {parts : List (NamePart file)}
    (notPlain : ¬∀ part ∈ parts, part.HasPlainArguments) : ∃ diagnostic later,
    memberName file
        ⟨previous, parts.flatMap NamePart.tokens ++ (written.tailTokens ++ rest), recorded⟩ =
      .error diagnostic later := by
  induction parts generalizing previous with
  | nil => exact absurd (List.forall_mem_nil _) notPlain
  | cons part parts ih =>
      rw [List.flatMap_cons, List.append_assoc]
      by_cases isPlain : part.HasPlainArguments
      · obtain ⟨word, named⟩ := written.named_of_parts rest parts
        rw [part.memberName_of_plain previous recorded isPlain named]
        exact ih (some part.dotToken) fun others =>
          notPlain (List.forall_mem_cons.mpr ⟨isPlain, others⟩)
      · exact part.memberName_of_notPlain previous recorded isPlain _

end Names

section Reading

variable (nested : Span → List AttributeList → List Modifier → Parser TypeDecl)
  (previous : Option Token) (rest : List Token) (recorded : List Diagnostic)

private theorem allTokens_append :
    written.allTokens ++ rest = written.frontOf (written.behindType ++ rest) := by
  simp [allTokens, WrittenMethod.frontOf]

/-- Behind the return type the name of the interface begins. -/
private theorem named_behindType : (written.behindType ++ rest).head?.map (·.kind) =
    some (.ident written.interface.name) :=
  congrArg some written.interface.name_kind

private theorem next_behindType :
    (Cursor.mk previous (written.behindType ++ rest) recorded).peek? 0 =
      some (.ident written.interface.name) :=
  congrArg some written.interface.name_kind

/-- A method with plain arguments is read as it is written. -/
theorem typeMember_of_plain (isMethod : ¬written.IsTakenForOther)
    (isPlain : written.HasPlainArguments) : ∃ method, written.IsReadAs method ∧
      typeMember nested file ⟨previous, written.allTokens ++ rest, recorded⟩ =
        .ok (some (.method method)) ⟨Token.lastOf previous written.allTokens, rest, recorded⟩ := by
  obtain ⟨start, lists, words, returnType, sameLists, sameWords, sameType, run⟩ :=
    written.typeMember_of_front previous (written.named_behindType rest) recorded nested isMethod
  obtain ⟨nameSpan, read⟩ := written.memberName_of_parts
    (Token.lastOf previous (written.frontOf [])) rest recorded isPlain
  have lastToken : Token.lastOf previous written.allTokens =
      Token.lastOf (Token.lastOf (some written.nameToken) written.parameterTokens)
        (written.listTokens ++ written.bodyTokens) := by
    simp [allTokens, behindType, WrittenMethod.frontOf, WrittenMethod.tailTokens]
  rw [← List.append_assoc] at read
  have tailRun := written.tail_of_name rest recorded
    (written.next_behindType (Token.lastOf previous (written.frontOf [])) rest recorded)
    written.interface_plain read
  rw [allTokens_append, lastToken, run, tailRun]
  exact ⟨_, ⟨sameLists, sameWords, sameType, rfl, rfl, rfl⟩, rfl⟩

/-- A method with other arguments cannot be read. -/
theorem typeMember_of_notPlain (isMethod : ¬written.IsTakenForOther)
    (notPlain : ¬written.HasPlainArguments) : ∃ diagnostic later,
      typeMember nested file ⟨previous, written.allTokens ++ rest, recorded⟩ =
        .error diagnostic later := by
  obtain ⟨start, lists, words, returnType, -, -, -, run⟩ :=
    written.typeMember_of_front previous (written.named_behindType rest) recorded nested isMethod
  obtain ⟨diagnostic, later, fails⟩ := written.memberName_of_notPlain
    (Token.lastOf previous (written.frontOf [])) rest recorded notPlain
  rw [← List.append_assoc] at fails
  have tailRun := methodTail_of_error
    (written.next_behindType (Token.lastOf previous (written.frontOf [])) rest recorded)
    written.interface_plain fails
  rw [allTokens_append, run, tailRun]
  exact ⟨diagnostic, later, rfl⟩

/-- In the body of a type a method with the name of its interface is read as exactly the
method that is written, and reading goes on behind it, if each type argument of the interface
is a single word.  With any other argument the member cannot be read, and an error is
recorded.  The exception for modifiers in front of a parenthesis is that of all methods. -/
theorem read_iff_plainArguments (depth : Nat) (found : List TypeMember) :
    let here : Cursor := ⟨previous, written.allTokens ++ rest, recorded⟩
    let behind : Cursor := ⟨Token.lastOf previous written.allTokens, rest, recorded⟩
    let member := typeMember (typeDeclWithin depth)
    let members := memberLoop atBodyEnd member fun found member => found ++ [member]
    ((∃ method, written.IsReadAs method ∧ member file here = .ok (some (.method method)) behind) ↔
        ¬written.IsTakenForOther ∧ written.HasPlainArguments) ∧
      (¬written.IsTakenForOther → written.HasPlainArguments → ∃ method, written.IsReadAs method ∧
        members found file here = members (found ++ [.method method]) file behind) ∧
      (¬written.IsTakenForOther → ¬written.HasPlainArguments →
        (∃ diagnostic later, member file here = .error diagnostic later) ∧
        ∀ all later, members found file here = .ok all later →
          ∃ errors, errors ≠ [] ∧ later.recorded = recorded ++ errors ∧
            ∀ error ∈ errors, error.isError = true) := by
  intro here behind member members
  have forward : Forward member := forward_typeMember _ (forward_typeDeclWithin depth)
  have isHere : here = ⟨previous, written.frontOf (written.behindType ++ rest), recorded⟩ := by
    rw [← allTokens_append]
  have noFault (spelling : String) : here.peek? 0 ≠ some (.fault spelling) := by
    rw [isHere]
    exact written.next_ne_fault previous recorded _ spelling
  have goesOn : atBodyEnd file here = .ok false here := by
    rw [isHere]
    exact written.bodyEnd_front previous recorded _
  have isRead := written.typeMember_of_plain (typeDeclWithin depth) previous rest recorded
  have isRefused := written.typeMember_of_notPlain (typeDeclWithin depth) previous rest recorded
  refine ⟨⟨fun wasRead => ?_, fun plain => isRead plain.1 plain.2⟩, fun isMethod isPlain => ?_,
    fun isMethod notPlain => ⟨isRefused isMethod notPlain, fun all later run => ?_⟩⟩
  · obtain ⟨method, -, run⟩ := wasRead
    have isMethod : ¬written.IsTakenForOther := by
      intro isOther
      obtain ⟨later, -, skipped⟩ := written.typeMember_of_taken previous recorded
        (typeDeclWithin depth) (written.behindType ++ rest) isOther
      rw [← allTokens_append] at skipped
      cases run.symm.trans skipped
    refine ⟨isMethod, Classical.byContradiction fun notPlain => ?_⟩
    obtain ⟨diagnostic, later, fails⟩ := isRefused isMethod notPlain
    cases run.symm.trans fails
  · obtain ⟨method, agrees, run⟩ := isRead isMethod isPlain
    have fewer : behind.remaining.length < here.remaining.length := by
      simp only [here, behind, allTokens, behindType, WrittenMethod.frontOf,
        WrittenMethod.tailTokens, List.length_append, List.length_cons]
      omega
    exact ⟨method, agrees,
      memberLoop_of_read stopsAtEnd_atBodyEnd forward goesOn noFault run fewer found⟩
  · obtain ⟨diagnostic, middle, fails⟩ := isRefused isMethod notPlain
    exact reported_of_memberLoop stopsAtEnd_atBodyEnd forward goesOn noFault fails run

end Reading

section Pairs

open WrittenMethod (bare pairMethod)

/-- The method `(int, string) IRepo<…>.M()` with an empty block, with some type arguments. -/
def repoMethod (argumentKinds : List TokenKind) (arguments : List TypeExpr)
    (read : ∃ last, argumentsIfAny type (SourceFile.ofText "" "")
      (Cursor.start (bare argumentKinds)) = .ok arguments ⟨last, [], []⟩) :
    ExplicitMethod (SourceFile.ofText "" "") where
  toWrittenMethod := pairMethod [] (List.forall_mem_nil _)
  interface :=
    { nameToken := ⟨.ident "IRepo", .nowhere⟩
      name := "IRepo"
      argumentTokens := bare argumentKinds
      arguments := arguments
      dotToken := ⟨.mark .dot, .nowhere⟩
      name_kind := rfl
      arguments_read := read
      dot_kind := rfl }
  further := []
  interface_plain := (by decide : "IRepo" ≠ "operator" ∧ "IRepo" ≠ "this")

/-- The method of `IRepo<int>` is read, and that of `IRepo<int?>` is not. -/
theorem read_iff_plainArguments_of_nullable :
    let plain := repoMethod [.mark .less, .ident "int", .mark .greater]
      [.predefined "int" .nowhere] ⟨_, rfl⟩
    let other := repoMethod [.mark .less, .ident "int", .mark .question, .mark .greater]
      [.nullable (.predefined "int" .nowhere) .nowhere] ⟨_, rfl⟩
    (∃ method, plain.IsReadAs method ∧
      typeMember (typeDeclWithin 0) (SourceFile.ofText "" "") ⟨none, plain.allTokens ++ [], []⟩ =
        .ok (some (.method method)) ⟨Token.lastOf none plain.allTokens, [], []⟩) ∧
    ∃ diagnostic later, typeMember (typeDeclWithin 0) (SourceFile.ofText "" "")
      ⟨none, other.allTokens ++ [], []⟩ = .error diagnostic later := by
  intro plain other
  have isPlain : plain.HasPlainArguments := List.forall_mem_singleton.mpr ⟨["int"], rfl⟩
  have notPlain : ¬other.HasPlainArguments := by
    intro isPlain
    obtain ⟨names, areKinds⟩ := List.forall_mem_singleton.mp isPlain
    rcases names with _ | ⟨first, _ | ⟨second, others⟩⟩ <;> cases areKinds
  refine ⟨(plain.read_iff_plainArguments none [] [] 0 []).1.mpr ⟨fun isOther => ?_, isPlain⟩, ?_⟩
  · exact isOther.1 rfl
  · exact ((other.read_iff_plainArguments none [] [] 0 []).2.2 (fun isOther => isOther.1 rfl)
      notPlain).1

end Pairs

end ExplicitMethod

end ErrorAccessors
