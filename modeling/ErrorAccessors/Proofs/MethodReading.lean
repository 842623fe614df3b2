/-
# Reading the rest of a method

Behind its return type a method has a name, type parameters, a parameter list
and a body.  All of this is read in the same way in front of the same, and what
is read does not depend on the return type or on anything in front of it, so
that the return type can be exchanged.
-/

import ErrorAccessors.Parser.Declaration
import ErrorAccessors.Proofs.AttributeReading

namespace ErrorAccessors.Parser

section TypeParameters

/-- Whether a variance comes next. -/
def atVariance : Parser Bool := do
  return (← secondIsIdent) && ((← atWord "in") || (← atWord "out"))

theorem repeats_atVariance : Repeats atVariance atVariance id := by
  refine repeats_of_second
    (fun next =>
      next.bind TokenKind.ident? == some "in" || next.bind TokenKind.ident? == some "out")
    (fun next => next.any TokenKind.isIdent) (fun next isVariance => further_of_ident ?_)
    fun file cursor => ?_
  · rcases Bool.or_eq_true_iff.mp isVariance with isIn | isOut
    · rw [eq_of_beq isIn]
      rfl
    · rw [eq_of_beq isOut]
      rfl
  · simp only [atVariance, bind_apply, secondIsIdent_apply, atWord_apply, pure_apply, Bool.and_comm]

/-- One round of reading type parameters. -/
def parameterRound (found : List String) : Parser (ForInStep (List String)) := do
  let _ ← attributeLists
  (do if ← atVariance then advance)
  let (name, _) ← expectIdent
  let found := found ++ [name]
  if ← eat .comma then return .yield found else return .done found

theorem typeParameters_eq :
    typeParameters = (do
      expect .less
      let found ← loop [] parameterRound
      expect .greater
      return found) := by
  have rounds : (fun found => do
      let _ ← attributeLists
      if (← secondIsIdent) && ((← atWord "in") || (← atWord "out")) then advance
      let (name, _) ← expectIdent
      let found := found ++ [name]
      if ← eat .comma then return .yield found else return .done found) = parameterRound := by
    funext found
    simp only [parameterRound, atVariance, bind_assoc, pure_bind, ite_bind]
  rw [typeParameters, rounds]

/-- Without a variance a type parameter is a name. -/
theorem parameterRound_of_name (found : List String) {file : SourceFile} {cursor : Cursor}
    {name : String} (named : cursor.peek? 0 = some (.ident name))
    (alone : (cursor.peek? 1).any TokenKind.isIdent = false) :
    parameterRound found file cursor =
      if cursor.advance.peek? 0 = some (.mark .comma) then
        .ok (.yield (found ++ [name])) cursor.advance.advance
      else .ok (.done (found ++ [name])) cursor.advance := by
  have lists := @attributeLists_of_none file cursor (by simp [named])
  simp only [parameterRound, bind_apply, lists, atVariance, secondIsIdent_apply, alone,
    Bool.false_eq_true, if_false, pure_apply, atWord_apply, Bool.false_and,
    expectIdent_apply, named, Option.bind_some, TokenKind.ident?, eat_apply]
  by_cases comma : cursor.advance.peek? 0 = some (.mark .comma)
  · rw [if_pos comma, if_pos comma]
    rfl
  · rw [if_neg comma, if_neg comma]
    rfl

/-- Without a name there is no type parameter. -/
theorem parameterRound_of_noName (found : List String) {file : SourceFile} {cursor : Cursor}
    {kind : TokenKind} (next : cursor.peek? 0 = some kind) (noName : kind.ident? = none)
    (noList : kind ≠ .mark .leftBracket) :
    parameterRound found file cursor = .error (cursor.unexpected file "identifier") cursor := by
  have lists := @attributeLists_of_none file cursor (by simpa [next] using noList)
  simp [parameterRound, bind_apply, lists, atVariance, secondIsIdent_apply, atWord_apply,
    expectIdent_apply, next, noName]

theorem repeats_variance :
    Repeats (do if ← atVariance then advance) (do if ← atVariance then advance) id := by
  refine repeats_atVariance.bind fun isVariance again same => ?_
  obtain rfl : again = isVariance := same
  exact .ite (fun _ => repeats_advance) fun _ => repeats_pure rfl

private theorem repeats_parameterRound {guard : ForInStep (List String) → Cursor → Prop}
    (found : List String) :
    RepeatsBefore guard (parameterRound found) (parameterRound found) (stepView id) := by
  refine repeats_attributeLists.bind fun _ _ _ => repeats_variance.bind fun _ _ _ => ?_
  refine repeats_expectIdent.bind fun ⟨name, _⟩ ⟨name', _⟩ same => ?_
  obtain rfl : name' = name := same
  refine (repeats_eat .comma).bind fun comma again same => ?_
  obtain rfl : again = comma := same
  exact .ite (fun _ => repeats_pure rfl) fun _ => repeats_pure rfl

theorem progresses_parameterRound : Progresses parameterRound := by
  have lists : Repeats attributeLists attributeLists (List.map AttributeList.unplaced) :=
    repeats_attributeLists
  refine progresses_of_usesToGoOn fun found => ?_
  refine .behind lists.forward fun _ => .behind repeats_variance.forward fun _ => ?_
  refine (uses_expectIdent.bind fun ⟨name, _⟩ => ?_).usesToGoOn
  exact (forward_eat .comma).bind fun _ => .ite (forward_pure _) (forward_pure _)

/-- Type parameters are read in the same way wherever they stand. -/
theorem closes_typeParameters : Closes typeParameters typeParameters id := by
  have opening : Repeats (expect .less) (expect .less) id := repeats_expect _
  have rounds : Repeats (loop [] parameterRound) (loop [] parameterRound) id := by
    refine repeats_loop progresses_parameterRound (fun found found' same => ?_) rfl
    obtain rfl : found' = found := same
    exact repeats_parameterRound _
  rw [typeParameters_eq]
  refine opening.bind_closes fun _ _ _ => rounds.bind_closes fun found found' same => ?_
  obtain rfl : found' = found := same
  exact (closes_expect .greater (by decide)).bind_settles fun _ _ _ => settles_pure rfl

/-- Type parameters begin with an opening angle bracket. -/
theorem next_of_typeParameters {file : SourceFile} {cursor later : Cursor}
    {parameters : List String} (run : typeParameters file cursor = .ok parameters later) :
    cursor.peek? 0 = some (.mark .less) := by
  rw [typeParameters_eq, bind_apply, expect_apply] at run
  by_cases opened : cursor.peek? 0 = some (.mark .less)
  · exact opened
  · simp [opened] at run

end TypeParameters

section Names

/-- The type parameters that come next, or those found before. -/
def parametersIfAny (parameters : List String) : Parser (List String) := do
  if ← atMark .less then typeParameters else pure parameters

theorem parametersIfAny_apply (parameters : List String) (file : SourceFile) (cursor : Cursor) :
    parametersIfAny parameters file cursor =
      if cursor.peek? 0 = some (.mark .less) then typeParameters file cursor
      else .ok parameters cursor := by
  simp only [parametersIfAny, bind_apply, atMark_apply, beq_iff_eq, ite_run, pure_apply]

/-- Whether another part of a name comes next. -/
def atNextPart : Parser Bool := do
  return (← atMark .dot) && (← secondIsIdent)

/-- One round of reading the name of a member. -/
def nameRound (found : String × Span × List String) :
    Parser (ForInStep (String × Span × List String)) := do
  let parameters ← parametersIfAny found.2.2
  if ← atNextPart then
    advance
    let (name, span) ← expectIdent
    return .yield (name, span, [])
  else return .done (found.1, found.2.1, parameters)

private theorem nameRound_eq :
    (fun found : String × Span × List String => do
      let (name, span, parameters) := found
      let parameters ← if ← atMark .less then typeParameters else pure parameters
      if (← atMark .dot) && (← secondIsIdent) then
        advance
        let (name, span) ← expectIdent
        return .yield (name, span, [])
      else return .done (name, span, parameters)) = nameRound := by
  funext found
  simp only [nameRound, parametersIfAny, atNextPart, bind_assoc, pure_bind, ite_bind]

theorem memberName_eq :
    memberName = (do
      let (name, span) ← expectIdent
      loop (name, span, []) nameRound) := by
  rw [memberName, nameRound_eq]

/-- The name and the type parameters of a member, without the place. -/
private def nameView (found : String × Span × List String) : String × List String :=
  (found.1, found.2.2)

private theorem repeats_parametersIfAny (parameters : List String) :
    Repeats (parametersIfAny parameters) (parametersIfAny parameters) id := by
  refine (repeats_atMark .less).bind fun opened again same => ?_
  obtain rfl : again = opened := same
  exact .ite (fun _ => closes_typeParameters.repeats) fun _ => repeats_pure rfl

theorem repeats_atNextPart : Repeats atNextPart atNextPart id :=
  repeats_of_second (fun next => next == some (.mark .dot)) (fun next => next.any TokenKind.isIdent)
    (fun _ isDot => ⟨_, eq_of_beq isDot, rfl⟩) fun _ _ => rfl

private theorem repeats_nameRound {guard : ForInStep (String × Span × List String) → Cursor → Prop}
    {found found' : String × Span × List String} (same : nameView found' = nameView found) :
    RepeatsBefore guard (nameRound found) (nameRound found') (stepView nameView) := by
  obtain ⟨name, span, parameters⟩ := found
  obtain ⟨name', span', parameters'⟩ := found'
  obtain ⟨rfl, rfl⟩ := Prod.mk.inj same
  refine (repeats_parametersIfAny _).bind fun parameters again same => ?_
  obtain rfl : again = parameters := same
  refine repeats_atNextPart.bind fun further again same => ?_
  obtain rfl : again = further := same
  refine .ite (fun _ => repeats_advance.bind fun _ _ _ => ?_) fun _ => repeats_pure rfl
  refine repeats_expectIdent.bind fun ⟨name, _⟩ ⟨name', _⟩ same => ?_
  obtain rfl : name' = name := same
  exact repeats_pure rfl

theorem progresses_nameRound : Progresses nameRound := by
  refine progresses_of_usesToGoOn fun found => ?_
  refine .behind (repeats_parametersIfAny _).forward fun _ => ?_
  refine .behind repeats_atNextPart.forward fun _ => ?_
  refine .ite (UsesToGoOn.behind forward_advance fun _ => ?_) (usesToGoOn_done _)
  exact (uses_expectIdent.bind fun _ => forward_pure _).usesToGoOn

/-- The name of a member is read in the same way in front of the same. -/
theorem repeats_memberName {guard : String × Span × List String → Cursor → Prop} :
    RepeatsBefore guard memberName memberName fun found => (found.1, found.2.2) := by
  rw [memberName_eq]
  refine repeats_expectIdent.bind fun ⟨name, span⟩ ⟨name', span'⟩ same => ?_
  obtain rfl : name' = name := same
  exact repeats_loop progresses_nameRound (fun found found' same => repeats_nameRound same) rfl

/-- A name and the type parameters behind it are read in front of anything that
does not continue the name. -/
theorem memberName_of_parameters {file : SourceFile} {cursor later : Cursor} {name : String}
    {parameters : List String} (named : cursor.peek? 0 = some (.ident name))
    (read : parametersIfAny [] file cursor.advance = .ok parameters later)
    (ends : later.peek? 0 ≠ some (.mark .dot)) :
    memberName file cursor = .ok (name, cursor.nextSpan file, parameters) later := by
  have first : expectIdent file cursor = .ok (name, cursor.nextSpan file) cursor.advance := by
    rw [expectIdent_apply, named]
    rfl
  have noPart : atNextPart file later = .ok false later := by
    have differs : (later.peek? 0 == some (.mark .dot)) = false := by simpa using ends
    simp only [atNextPart, bind_apply, atMark_apply, secondIsIdent_apply, differs, Bool.false_and,
      pure_apply]
  rw [memberName_eq, bind_apply, first]
  refine loop_of_done file progresses_nameRound ?_
  rw [nameRound, bind_apply, read]
  simp only [bind_apply, noPart, Bool.false_eq_true, if_false, pure_apply]

/-- A part of a name in front of a dot and another part is passed, with its type
parameters. -/
theorem memberName_of_nextPart {file : SourceFile} {cursor later : Cursor} {name word : String}
    {parameters : List String} (named : cursor.peek? 0 = some (.ident name))
    (read : parametersIfAny [] file cursor.advance = .ok parameters later)
    (dot : later.peek? 0 = some (.mark .dot)) (next : later.peek? 1 = some (.ident word)) :
    memberName file cursor = memberName file later.advance := by
  have first : expectIdent file cursor = .ok (name, cursor.nextSpan file) cursor.advance := by
    rw [expectIdent_apply, named]
    rfl
  have isPart : atNextPart file later = .ok true later := by
    simp [atNextPart, bind_apply, dot, next, TokenKind.isIdent, TokenKind.ident?, -bind_pure_comp]
  have second : expectIdent file later.advance =
      .ok (word, later.advance.nextSpan file) later.advance.advance := by
    rw [expectIdent_apply, Cursor.peek?_advance dot 0, next]
    rfl
  rw [memberName_eq, bind_apply, bind_apply, first, second]
  apply loop_of_yield file progresses_nameRound
  rw [nameRound, bind_apply, read]
  simp only [bind_apply, isPart, if_true, advance_apply, second, pure_apply]

/-- What cannot be read as the type parameters behind a name ends the reading. -/
theorem memberName_of_error {file : SourceFile} {cursor later : Cursor} {name : String}
    {diagnostic : Diagnostic} (named : cursor.peek? 0 = some (.ident name))
    (fails : parametersIfAny [] file cursor.advance = .error diagnostic later) :
    memberName file cursor = .error diagnostic later := by
  have first : expectIdent file cursor = .ok (name, cursor.nextSpan file) cursor.advance := by
    rw [expectIdent_apply, named]
    rfl
  rw [memberName_eq, bind_apply, first]
  apply loop_of_error file progresses_nameRound
  rw [nameRound, bind_apply, fails]

/-- The name whose span is given was passed on the way from one cursor to
another. -/
def PassesName (here later : Cursor) (span : Span) : Prop :=
  ∃ before token behind, here.remaining = before ++ token :: (behind ++ later.remaining) ∧
    token.span = span

private theorem PassesName.trans {here middle later : Cursor} {span : Span}
    (passes : PassesName here middle span) (reached : middle.Reaches later) :
    PassesName here later span := by
  obtain ⟨before, token, behind, remaining, isSpan⟩ := passes
  obtain ⟨more, passed⟩ := reached.remaining
  exact ⟨before, token, behind ++ more, by rw [remaining, ← passed, List.append_assoc], isSpan⟩

private theorem passesName_of_expectIdent {file : SourceFile} {here middle later : Cursor}
    {name : String} {span : Span} (reached : here.Reaches middle)
    (run : expectIdent file middle = .ok (name, span) later) : PassesName here later span := by
  rw [expectIdent_apply] at run
  cases named : (middle.peek? 0).bind TokenKind.ident? with
  | none => simp [named] at run
  | some word =>
      simp only [named] at run
      cases run
      obtain ⟨token, kind, remaining⟩ := Cursor.remaining_eq_cons (Cursor.peek?_eq_ident named)
      obtain ⟨before, passed⟩ := reached.remaining
      refine ⟨before, token, [], by rw [← passed, remaining]; rfl, ?_⟩
      rw [Cursor.nextSpan, remaining]

/-- The name of a member is one of the tokens that reading it passes. -/
theorem passesName_of_memberName {file : SourceFile} {cursor later : Cursor} {name : String}
    {span : Span} {parameters : List String}
    (run : memberName file cursor = .ok (name, span, parameters) later) :
    PassesName cursor later span := by
  rw [memberName_eq, bind_apply] at run
  cases first : expectIdent file cursor with
  | error diagnostic reached => simp [first] at run
  | ok found reached =>
      obtain ⟨word, place⟩ := found
      simp only [first] at run
      have start := passesName_of_expectIdent (.refl cursor) first
      let keeps (found : String × Span × List String) (reached : Cursor) : Prop :=
        cursor.Reaches reached ∧ PassesName cursor reached found.2.1
      have started : keeps (word, place, []) reached :=
        ⟨forward_expectIdent.of_ok first, start⟩
      refine (@loop_induction _ _ file progresses_nameRound keeps keeps ?_ _ _ _ _ started run).2
      intro found here behind outcome kept round
      rw [nameRound, bind_apply] at round
      cases parametersRun : parametersIfAny found.2.2 file here with
      | error diagnostic middle => simp [parametersRun] at round
      | ok parameters middle =>
          have reached := (repeats_parametersIfAny found.2.2).forward.of_ok parametersRun
          simp only [parametersRun, bind_apply] at round
          obtain ⟨further, looked⟩ : ∃ further, atNextPart file middle = .ok further middle :=
            ⟨_, rfl⟩
          rw [looked] at round
          cases further with
          | false =>
              cases round
              exact ⟨kept.1.trans reached, kept.2.trans reached⟩
          | true =>
              simp only [if_true, bind_apply, advance_apply] at round
              cases next : expectIdent file middle.advance with
              | error diagnostic final => simp [next] at round
              | ok found final =>
                  simp only [next] at round
                  cases round
                  have onward := (kept.1.trans reached).trans middle.reaches_advance
                  exact ⟨onward.trans (forward_expectIdent.of_ok next),
                    passesName_of_expectIdent onward next⟩

end Names

section Bodies

/-- A body is read in the same way in front of the same. -/
theorem repeats_methodBody {guard : MethodBody → Cursor → Prop} :
    RepeatsBefore guard methodBody methodBody id := by
  have skipped : Repeats skipBalanced skipBalanced id := closes_skipBalanced.repeats
  have statement : Repeats skipStatement skipStatement id := by
    rw [skipStatement_eq]
    exact repeats_skipBy statementAction
  refine (repeats_atMark .leftBrace).bind fun block again same => ?_
  obtain rfl : again = block := same
  refine .ite (fun _ => skipped.bind fun _ _ _ => repeats_pure rfl) fun _ => ?_
  refine (repeats_eat .arrow).bind fun arrow again same => ?_
  obtain rfl : again = arrow := same
  refine .ite (fun _ => statement.bind fun _ _ _ => repeats_pure rfl) fun _ => ?_
  refine (repeats_eat .semicolon).bind fun absent again same => ?_
  obtain rfl : again = absent := same
  exact .ite (fun _ => repeats_pure rfl) fun _ => repeats_failExpecting _

theorem methodBody_apply (file : SourceFile) (cursor : Cursor) :
    methodBody file cursor =
      if cursor.peek? 0 = some (.mark .leftBrace) then
        match skipBalanced file cursor with
        | .ok _ later => .ok .block later
        | .error diagnostic later => .error diagnostic later
      else if cursor.peek? 0 = some (.mark .arrow) then
        match skipStatement file cursor.advance with
        | .ok _ later => .ok .expression later
        | .error diagnostic later => .error diagnostic later
      else if cursor.peek? 0 = some (.mark .semicolon) then .ok .absent cursor.advance
      else .error (cursor.unexpected file "method body") cursor := by
  simp only [methodBody, bind_apply, atMark_apply, beq_iff_eq, ite_run, eat_apply, pure_apply]
  by_cases block : cursor.peek? 0 = some (.mark .leftBrace)
  · simp only [if_pos block]
    cases skipBalanced file cursor <;> rfl
  · simp only [if_neg block]
    by_cases arrow : cursor.peek? 0 = some (.mark .arrow)
    · simp only [if_pos arrow, if_true]
      cases skipStatement file cursor.advance <;> rfl
    · simp only [if_neg arrow, Bool.false_eq_true, if_false]
      by_cases absent : cursor.peek? 0 = some (.mark .semicolon)
      · simp only [if_pos absent, if_true]
      · simp only [if_neg absent, Bool.false_eq_true, if_false, failExpecting_apply]

/-- Which tokens are the body of a method. -/
inductive WritesBody : List Token → MethodBody → Prop
  | block {tokens : List Token} (enclosed : Enclosed .leftBrace tokens) : WritesBody tokens .block
  | expression {arrow semicolon : Token} {inner : List Token} (arrows : arrow.kind = .mark .arrow)
      (skipped : SkippedBy statementAction inner) (ends : semicolon.kind = .mark .semicolon) :
      WritesBody (arrow :: (inner ++ [semicolon])) .expression
  | absent {semicolon : Token} (ends : semicolon.kind = .mark .semicolon) :
      WritesBody [semicolon] .absent

/-- What a body begins with. -/
theorem WritesBody.begins {tokens : List Token} {body : MethodBody}
    (writes : WritesBody tokens body) :
    ∃ mark ∈ [Mark.leftBrace, .arrow, .semicolon],
      tokens.head?.map (·.kind) = some (.mark mark) := by
  cases writes with
  | block enclosed => exact ⟨_, by simp, enclosed.opens⟩
  | expression arrows skipped ends => exact ⟨.arrow, by simp, congrArg some arrows⟩
  | absent ends => exact ⟨.semicolon, by simp, congrArg some ends⟩

/-- The body of a method is read as what it is, whatever comes behind it. -/
theorem methodBody_of_writes {tokens : List Token} {body : MethodBody}
    (writes : WritesBody tokens body) (file : SourceFile) (previous : Option Token)
    (rest : List Token) (recorded : List Diagnostic) :
    methodBody file ⟨previous, tokens ++ rest, recorded⟩ =
      .ok body ⟨Token.lastOf previous tokens, rest, recorded⟩ := by
  cases writes with
  | block enclosed =>
      obtain ⟨last, closed⟩ := enclosed.closed
      rw [methodBody_apply, if_pos (Cursor.peek?_of_head enclosed.opens ..),
        skipBalanced_of_closed file previous recorded closed]
  | @expression arrow semicolon inner arrows skipped ends =>
      let atEnd : Cursor := ⟨Token.lastOf (some arrow) inner, semicolon :: rest, recorded⟩
      have statement : skipStatement file ⟨some arrow, inner ++ semicolon :: rest, recorded⟩ =
          .ok () atEnd.advance := by
        rw [skipStatement_eq, skipBy_of_skipped file (some arrow) recorded skipped]
        exact skipBy_of_stepAndStop file (congrArg some ends) rfl
      have tokensAre : arrow :: (inner ++ [semicolon]) ++ rest =
          arrow :: (inner ++ semicolon :: rest) := by
        simp
      rw [tokensAre, methodBody_apply, Cursor.peek?_zero_cons, arrows, if_neg (by simp), if_pos rfl,
        Cursor.advance_cons, statement, Token.lastOf_cons, Token.lastOf_append]
      rfl
  | @absent semicolon ends =>
      rw [methodBody_apply, List.singleton_append, Cursor.peek?_zero_cons, ends, if_neg (by simp),
        if_neg (by simp), if_pos rfl]
      rfl

end Bodies

section Tails

/-- The part of a method behind its return type. -/
structure MethodTail where
  name : String
  nameSpan : Span
  typeParameters : List String
  body : MethodBody

/-- The part of a method behind its return type, without the place of the
name. -/
def MethodTail.unplaced (tail : MethodTail) : MethodTail :=
  { tail with nameSpan := .nowhere }

/-- Whether what comes behind a type is not the name of a method. -/
private def atNoMethodName : Parser Bool := do
  return !(← atIdent) || (← atWord "operator") || (← atWord "this")

private theorem atNoMethodName_apply (file : SourceFile) (cursor : Cursor) :
    atNoMethodName file cursor =
      .ok (!((cursor.peek? 0).bind TokenKind.ident?).isSome ||
        (cursor.peek? 0).bind TokenKind.ident? == some "operator" ||
        (cursor.peek? 0).bind TokenKind.ident? == some "this") cursor := rfl

/-- A member from behind its type on: a method, or another member, which is
skipped. -/
def methodTail : Parser (Option MethodTail) := do
  if ← atNoMethodName then
    skipMember
    return none
  let (name, nameSpan, typeParameters) ← memberName
  if !(← atMark .leftParen) then
    skipMember
    return none
  skipBalanced
  skipUntil [.leftBrace, .arrow, .semicolon, .rightBrace]
  let body ← methodBody
  return some ⟨name, nameSpan, typeParameters, body⟩

/-- A member from behind its type to its body: the name of a method with its place and its
type parameters, or another member, which is skipped. -/
def methodHead : Parser (Option (String × Span × List String)) := do
  if ← atNoMethodName then
    skipMember
    return none
  let (name, nameSpan, typeParameters) ← memberName
  if !(← atMark .leftParen) then
    skipMember
    return none
  skipBalanced
  skipUntil [.leftBrace, .arrow, .semicolon, .rightBrace]
  return some (name, nameSpan, typeParameters)

theorem methodTail_eq :
    methodTail = (do
      match ← methodHead with
      | none => return none
      | some (name, nameSpan, typeParameters) =>
        return some ⟨name, nameSpan, typeParameters, ← methodBody⟩) := by
  simp only [methodTail, methodHead, bind_assoc, pure_bind, ite_bind]

/-- The method whose tail has been read. -/
private def completed (start : Span) (lists : List AttributeList) (words : List Modifier)
    (returnType : TypeExpr) : Option MethodTail → Parser (Option MethodDecl)
  | none => return none
  | some tail => do
    return some ⟨← spanFrom start, lists, words, returnType, tail.name, tail.nameSpan,
      tail.typeParameters, tail.body⟩

private theorem methodTail_bind_completed (start : Span) (lists : List AttributeList)
    (words : List Modifier) (returnType : TypeExpr) :
    methodTail >>= completed start lists words returnType = (do
      if !(← atIdent) || (← atWord "operator") || (← atWord "this") then
        skipMember
        return none
      let (name, nameSpan, parameters) ← memberName
      if !(← atMark .leftParen) then
        skipMember
        return none
      skipBalanced
      skipUntil [.leftBrace, .arrow, .semicolon, .rightBrace]
      let body ← methodBody
      return some
        ⟨← spanFrom start, lists, words, returnType, name, nameSpan, parameters, body⟩) := by
  simp only [methodTail, atNoMethodName, completed, bind_assoc, pure_bind, ite_bind]

/-- A method has its return type and what comes in front of it from where it was
read, and the rest from its tail. -/
theorem method?_apply (start : Span) (lists : List AttributeList) (words : List Modifier)
    (file : SourceFile) (cursor : Cursor) :
    method? start lists words file cursor =
      match type file cursor with
      | .error _ _ => (do skipMember; return none : Parser (Option MethodDecl)) file cursor
      | .ok returnType reached =>
        match methodTail file reached with
        | .error diagnostic later => .error diagnostic later
        | .ok none later => .ok none later
        | .ok (some tail) later =>
          .ok (some ⟨later.spanFrom start, lists, words, returnType, tail.name, tail.nameSpan,
            tail.typeParameters, tail.body⟩) later := by
  simp only [method?, ← methodTail_bind_completed]
  rw [bind_apply, get_apply]
  simp only [bind_apply, attempt_apply]
  cases type file cursor with
  | error diagnostic later => simp only [bind_apply, set_apply]
  | ok returnType reached =>
      simp only [bind_apply]
      cases methodTail file reached with
      | error diagnostic later => rfl
      | ok tail later =>
          cases tail with
          | none => rfl
          | some tail => simp only [completed, bind_apply, spanFrom_apply, pure_apply]

/-- A name, a parameter list and a body make the tail of a method. -/
theorem methodTail_of_parts {file : SourceFile} {cursor behindName behindList later : Cursor}
    {word name : String} {nameSpan : Span} {parameters : List String} {mark : Mark}
    {body : MethodBody} (named : cursor.peek? 0 = some (.ident word))
    (ordinary : word ≠ "operator" ∧ word ≠ "this")
    (read : memberName file cursor = .ok (name, nameSpan, parameters) behindName)
    (opened : behindName.peek? 0 = some (.mark .leftParen))
    (list : skipBalanced file behindName = .ok () behindList)
    (stops : mark ∈ [Mark.leftBrace, .arrow, .semicolon])
    (next : behindList.peek? 0 = some (.mark mark))
    (written : methodBody file behindList = .ok body later) :
    methodTail file cursor = .ok (some ⟨name, nameSpan, parameters, body⟩) later := by
  have isName : atNoMethodName file cursor = .ok false cursor := by
    simp [atNoMethodName_apply, named, TokenKind.ident?, ordinary]
  have stopsAtOnce : skipUntil [.leftBrace, .arrow, .semicolon, .rightBrace] file behindList =
      .ok () behindList := by
    rw [skipUntil_eq]
    refine skipBy_of_stop file next (if_pos ?_)
    simp only [List.mem_cons, List.not_mem_nil, or_false] at stops
    rcases stops with rfl | rfl | rfl <;> rfl
  simp only [methodTail, bind_apply, isName, Bool.false_eq_true, if_false, read,
    atMark_apply, opened, beq_self_eq_true, Bool.not_true, list, stopsAtOnce, written, pure_apply]

/-- What begins like a name but cannot be read as one ends the reading. -/
theorem methodTail_of_error {file : SourceFile} {cursor later : Cursor} {word : String}
    {diagnostic : Diagnostic} (named : cursor.peek? 0 = some (.ident word))
    (ordinary : word ≠ "operator" ∧ word ≠ "this")
    (fails : memberName file cursor = .error diagnostic later) :
    methodTail file cursor = .error diagnostic later := by
  have isName : atNoMethodName file cursor = .ok false cursor := by
    simp [atNoMethodName_apply, named, TokenKind.ident?, ordinary]
  simp only [methodTail, bind_apply, isName, Bool.false_eq_true, if_false, fails]

/-- What is not named like a method is skipped. -/
theorem methodTail_of_noName {file : SourceFile} {cursor : Cursor}
    (noName : ∀ name, cursor.peek? 0 = some (.ident name) → name = "operator" ∨ name = "this") :
    methodTail file cursor =
      (do skipMember; return none : Parser (Option MethodTail)) file cursor := by
  have noMethod : atNoMethodName file cursor = .ok true cursor := by
    rw [atNoMethodName_apply]
    cases isName : (cursor.peek? 0).bind TokenKind.ident? with
    | none => rfl
    | some name =>
        rcases noName name (Cursor.peek?_eq_ident isName) with rfl | rfl <;> rfl
  simp only [methodTail, bind_apply, noMethod, if_true, ite_run]

/-- What has no parameter list behind its name is skipped. -/
theorem methodTail_of_noList {file : SourceFile} {cursor behindName : Cursor} {name : String}
    {nameSpan : Span} {parameters : List String} (named : cursor.peek? 0 = some (.ident name))
    (ordinary : name ≠ "operator" ∧ name ≠ "this")
    (read : memberName file cursor = .ok (name, nameSpan, parameters) behindName)
    (noList : behindName.peek? 0 ≠ some (.mark .leftParen)) :
    methodTail file cursor =
      (do skipMember; return none : Parser (Option MethodTail)) file behindName := by
  have isName : atNoMethodName file cursor = .ok false cursor := by
    simp [atNoMethodName_apply, named, TokenKind.ident?, ordinary]
  have noParen : (behindName.peek? 0 == some (TokenKind.mark .leftParen)) = false := by
    simpa using noList
  simp only [methodTail, bind_apply, isName, Bool.false_eq_true, if_false, read, atMark_apply,
    noParen, Bool.not_false, if_true]

theorem repeats_skipUntil (marks : List Mark) :
    Repeats (skipUntil marks) (skipUntil marks) id := by
  rw [skipUntil_eq]
  exact repeats_skipBy (untilAction marks)

private theorem repeats_skippedMember {α β : Type} {view : Option α → β}
    {guard : Option α → Cursor → Prop} :
    RepeatsBefore guard (do skipMember; return none) (do skipMember; return none) view :=
  have skips : Repeats skipMember skipMember id := repeats_skipMember
  skips.bind fun _ _ _ => repeats_pure rfl

private theorem repeats_atNoMethodName : Repeats atNoMethodName atNoMethodName id :=
  repeats_of_first
    (fun next => !(next.bind TokenKind.ident?).isSome ||
      next.bind TokenKind.ident? == some "operator" || next.bind TokenKind.ident? == some "this")
    atNoMethodName_apply

theorem repeats_methodHead :
    Repeats methodHead methodHead (Option.map fun found => (found.1, found.2.2)) := by
  have skipped : Repeats skipBalanced skipBalanced id := closes_skipBalanced.repeats
  refine repeats_atNoMethodName.bind fun noName again same => ?_
  obtain rfl : again = noName := same
  refine .ite (fun _ => repeats_skippedMember) fun _ => ?_
  refine repeats_memberName.bind fun ⟨name, span, parameters⟩ ⟨name', span', parameters'⟩ same => ?_
  obtain ⟨rfl, rfl⟩ := Prod.mk.inj same
  refine (repeats_atMark .leftParen).bind fun opened again same => ?_
  obtain rfl : again = opened := same
  refine .ite (fun _ => repeats_skippedMember) fun _ => ?_
  exact skipped.bind fun _ _ _ => (repeats_skipUntil _).bind fun _ _ _ => repeats_pure rfl

/-- The tail of a method is read in the same way in front of the same. -/
theorem repeats_methodTail {guard : Option MethodTail → Cursor → Prop} :
    RepeatsBefore guard methodTail methodTail (Option.map MethodTail.unplaced) := by
  rw [methodTail_eq]
  refine repeats_methodHead.bind fun found again same => ?_
  cases found with
  | none =>
      obtain rfl := Option.map_eq_none_iff.mp same
      exact repeats_pure rfl
  | some found =>
      obtain ⟨again, rfl, sameName⟩ := Option.map_eq_some_iff.mp same
      obtain ⟨name, span, parameters⟩ := found
      obtain ⟨name', span', parameters'⟩ := again
      obtain ⟨rfl, rfl⟩ := Prod.mk.inj sameName
      refine repeats_methodBody.bind fun body again same => ?_
      obtain rfl : again = body := same
      exact repeats_pure rfl

/-- What is read of a method up to its body: a name, a parameter list, and clauses which
are skipped. -/
theorem parts_of_methodHead {file : SourceFile} {cursor later : Cursor}
    {found : String × Span × List String} (run : methodHead file cursor = .ok (some found) later) :
    (∃ word, cursor.peek? 0 = some (.ident word)) ∧ ∃ behindName behindList,
      memberName file cursor = .ok found behindName ∧
      behindName.peek? 0 = some (.mark .leftParen) ∧
      skipBalanced file behindName = .ok () behindList ∧
      skipUntil [.leftBrace, .arrow, .semicolon, .rightBrace] file behindList = .ok () later := by
  rw [methodHead, bind_apply, atNoMethodName_apply] at run
  simp only [ite_run, bind_apply] at run
  split at run
  · cases skipped : skipMember file cursor <;> simp [skipped] at run
  next isName =>
  cases named : memberName file cursor with
  | error diagnostic reached => simp [named] at run
  | ok name reached =>
  simp only [named, atMark_apply] at run
  split at run
  · cases skipped : skipMember file reached <;> simp [skipped] at run
  next opened =>
  cases list : skipBalanced file reached with
  | error diagnostic behind => simp [list] at run
  | ok _ behindList =>
  cases skipped : skipUntil [.leftBrace, .arrow, .semicolon, .rightBrace] file behindList with
  | error diagnostic behind => simp [list, skipped] at run
  | ok _ behind =>
  simp only [list, skipped, pure_apply] at run
  cases run
  refine ⟨?_, reached, behindList, rfl, by simpa using opened, list, skipped⟩
  obtain ⟨word, next⟩ : ∃ word, (cursor.peek? 0).bind TokenKind.ident? = some word := by
    cases next : (cursor.peek? 0).bind TokenKind.ident? with
    | none => simp [next] at isName
    | some word => exact ⟨word, rfl⟩
  exact ⟨word, Cursor.peek?_eq_ident next⟩

/-- A method has its name and type parameters from its head, and then its body. -/
theorem parts_of_methodTail {file : SourceFile} {cursor later : Cursor} {tail : MethodTail}
    (run : methodTail file cursor = .ok (some tail) later) :
    ∃ atBody, methodHead file cursor = .ok (some (tail.name, tail.nameSpan, tail.typeParameters))
        atBody ∧ methodBody file atBody = .ok tail.body later := by
  rw [methodTail_eq, bind_apply] at run
  cases head : methodHead file cursor with
  | error diagnostic reached => simp [head] at run
  | ok found atBody =>
  cases found with
  | none => simp [head] at run
  | some found =>
  cases body : methodBody file atBody with
  | error diagnostic reached => simp [head, bind_apply, body] at run
  | ok isBody ended =>
  simp only [head, bind_apply, body, pure_apply] at run
  cases run
  exact ⟨atBody, rfl, body⟩

/-- The tail of a method begins with an identifier and passes the name that it
gives. -/
theorem passesName_of_methodTail {file : SourceFile} {cursor later : Cursor} {tail : MethodTail}
    (run : methodTail file cursor = .ok (some tail) later) :
    (∃ word, cursor.peek? 0 = some (.ident word)) ∧ PassesName cursor later tail.nameSpan := by
  obtain ⟨atBody, head, read⟩ := parts_of_methodTail run
  obtain ⟨begins, behindName, behindList, named, -, list, skipped⟩ := parts_of_methodHead head
  have body : Repeats methodBody methodBody id := repeats_methodBody
  have onward := ((forward_skipBalanced.of_ok list).trans
    ((repeats_skipUntil _).forward.of_ok skipped)).trans (body.forward.of_ok read)
  exact ⟨begins, (passesName_of_memberName named).trans onward⟩

end Tails

end ErrorAccessors.Parser
