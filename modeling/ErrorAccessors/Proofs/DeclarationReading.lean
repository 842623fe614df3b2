/-
# Reading the parts of declarations again

What is read of using directives, of the head of a type declaration and of a
method is read again in front of the same.  A method needs more than what comes
next: if its return type cannot be read, the reader of types has looked ahead as
far as to the end of the member, and the same has to be there again.
-/

import ErrorAccessors.Proofs.ProperOutline
import ErrorAccessors.Proofs.TypeLookahead
import ErrorAccessors.Proofs.TypeText
import ErrorAccessors.Proofs.UnplacedOutline

namespace ErrorAccessors

namespace Cursor

/-- A type is complete in front of the same. -/
theorem EndsType.of_first {here there : Cursor} (ends : here.EndsType)
    (first : there.peek? 0 = here.peek? 0) : there.EndsType := by
  refine ⟨⟨?_, ?_, ?_⟩, ?_, ?_, ?_⟩ <;> rw [first]
  · exact ends.less
  · exact ends.dot
  · exact ends.doubleColon
  · exact ends.question
  · exact ends.star
  · exact ends.leftBracket

end Cursor

namespace Parser

section Looks

variable {here there : Cursor}

/-- What is seen of the token behind a name is the same in front of the same. -/
private theorem second_of_named (same : here.SameNext there) {word : String}
    (named : (here.peek? 0).bind TokenKind.ident? = some word) : there.peek? 1 = here.peek? 1 := by
  obtain ⟨kind, next, further⟩ := further_of_ident (Option.isSome_of_eq_some named)
  exact same.second kind next further

theorem beginsType_of_sameNext (same : here.SameNext there) :
    there.beginsType = here.beginsType := by
  simp only [Cursor.beginsType, same.first]
  cases named : (here.peek? 0).bind TokenKind.ident? with
  | none => rfl
  | some word => rw [second_of_named same named]

theorem beginsSkipped_of_sameNext (same : here.SameNext there) :
    there.beginsSkipped = here.beginsSkipped := by
  simp only [Cursor.beginsSkipped, same.first]
  cases named : (here.peek? 0).bind TokenKind.ident? with
  | none => rfl
  | some word => rw [second_of_named same named]

theorem repeats_atTypeKeyword : Repeats atTypeKeyword atTypeKeyword id :=
  repeats_of_look fun file other here there same =>
    ⟨_, _, atTypeKeyword_apply file here, atTypeKeyword_apply other there,
      beginsType_of_sameNext same⟩

theorem repeats_atSkippedMember : Repeats atSkippedMember atSkippedMember id :=
  repeats_of_look fun file other here there same =>
    ⟨_, _, atSkippedMember_apply file here, atSkippedMember_apply other there,
      beginsSkipped_of_sameNext same⟩

private theorem isEmpty_eq_isNone (cursor : Cursor) :
    cursor.remaining.isEmpty = (cursor.peek? 0).isNone := by
  obtain ⟨previous, remaining, recorded⟩ := cursor
  cases remaining <;> rfl

theorem repeats_atEnd : Repeats atEnd atEnd id :=
  repeats_of_first Option.isNone fun file cursor => by rw [atEnd_apply, isEmpty_eq_isNone]

theorem repeats_atBodyEnd : Repeats atBodyEnd atBodyEnd id :=
  repeats_of_first (fun next => next == some (.mark .rightBrace) || next.isNone)
    fun file cursor => by rw [atBodyEnd_apply, isEmpty_eq_isNone]

theorem repeats_atUsingDirective : Repeats atUsingDirective atUsingDirective id := by
  refine repeats_of_second (fun next => next.bind TokenKind.ident? == some "using")
    (fun next => !(next == some (.mark .leftParen)) && !(next.any fun kind => kind.isWord "var"))
    (fun next isUsing => further_of_ident ?_) fun file cursor => ?_
  · rw [eq_of_beq isUsing]
    rfl
  · rw [← Bool.and_assoc]
    rfl

end Looks

section Types

/-- A type is read again in front of something that does not continue it. -/
theorem repeats_type :
    RepeatsBefore (fun _ later => later.EndsType) type type TypeExpr.unplaced := by
  refine ⟨forward_type, fun file cursor later value run _ ends => ?_⟩
  obtain ⟨tokens, passed, spells⟩ := type_spelled run
  refine ⟨tokens, passed, fun other previous copies rest recorded alike inFront => ?_⟩
  exact rereads_type spells other previous copies rest recorded alike (ends.of_first inFront.first)

theorem repeats_atWord {guard : Bool → Cursor → Prop} (word : String) :
    RepeatsBefore guard (atWord word) (atWord word) id :=
  repeats_of_first (fun next => next.bind TokenKind.ident? == some word)
    fun file cursor => atWord_apply file cursor word

theorem repeats_eatWord {guard : Bool → Cursor → Prop} (word : String) :
    RepeatsBefore guard (eatWord word) (eatWord word) id := by
  have look : Repeats (atWord word) (atWord word) id := repeats_atWord word
  refine look.bind fun eaten again same => ?_
  obtain rfl : again = eaten := same
  exact .ite (fun _ => repeats_advance.bind fun _ _ _ => repeats_pure rfl) fun _ => repeats_pure rfl

theorem repeats_skipBalanced {guard : Unit → Cursor → Prop} :
    RepeatsBefore guard skipBalanced skipBalanced id :=
  closes_skipBalanced.repeats

end Types

section Directives

private theorem repeats_atAlias : Repeats atAlias atAlias id :=
  repeats_of_behindName (fun next => next == some (.mark .equals)) fun _ _ => rfl

variable (start start' : Span) (isGlobal : Bool)

private theorem closes_directiveEnd (kind : UsingKind) :
    Closes (directiveEnd start isGlobal kind) (directiveEnd start' isGlobal kind)
      UsingDirective.unplaced := by
  refine (closes_expect .semicolon (by decide)).bind_settles fun _ _ _ => ?_
  exact (settles_spanFrom start start').bind fun _ _ _ => settles_pure rfl

/-- A type in front of the end of a directive is complete. -/
private theorem closes_typedEnd (kind : String → UsingKind) :
    Closes (do directiveEnd start isGlobal (kind (← type).text))
      (do directiveEnd start' isGlobal (kind (← type).text)) UsingDirective.unplaced := by
  refine repeats_type.bind_closes_before (fun type again same => ?_)
    fun file read middle final later run => ?_
  · have text : again.text = type.text := by
      rw [← TypeExpr.text_unplaced, same, TypeExpr.text_unplaced]
    rw [text]
    exact closes_directiveEnd start start' isGlobal _
  · rw [directiveEnd, bind_apply, expect_apply] at run
    by_cases closed : middle.peek? 0 = some (.mark .semicolon)
    · refine ⟨⟨?_, ?_, ?_⟩, ?_, ?_, ?_⟩ <;> simp [closed]
    · simp [closed] at run

private theorem closes_directiveRest :
    Closes (directiveRest start isGlobal) (directiveRest start' isGlobal)
      UsingDirective.unplaced := by
  refine (repeats_eatWord "static").bind_closes fun isStatic again same => ?_
  obtain rfl : again = isStatic := same
  refine repeats_atAlias.bind_closes fun isAlias again same => ?_
  obtain rfl : again = isAlias := same
  refine .ite (fun _ => closes_typedEnd start start' isGlobal .ofStatic) fun _ =>
    .ite (fun _ => ?_) fun _ => ?_
  · refine repeats_expectIdent.bind_closes fun ⟨name, _⟩ ⟨name', _⟩ same => ?_
    obtain rfl : name' = name := same
    exact repeats_advance.bind_closes fun _ _ _ =>
      closes_typedEnd start start' isGlobal (.ofAlias _)
  · refine repeats_dottedName.bind_closes fun parts again same => ?_
    obtain rfl : again = parts := same
    exact closes_directiveEnd start start' isGlobal _

/-- A using directive is read again wherever it stands. -/
theorem closes_usingDirective :
    Closes (usingDirective start isGlobal) (usingDirective start' isGlobal)
      UsingDirective.unplaced := by
  rw [usingDirective_eq, usingDirective_eq]
  refine (repeats_eatWord "using").bind_closes fun begins again same => ?_
  obtain rfl : again = begins := same
  refine .ite (fun _ => closes_directiveRest start start' isGlobal) fun _ => ?_
  have fails : Repeats (failExpecting "`using`") (failExpecting "`using`") fun _ : Unit => () :=
    repeats_failExpecting _
  exact fails.bind_closes fun _ _ _ => closes_directiveRest start start' isGlobal

end Directives

section Heads

theorem repeats_typeKind : Repeats typeKind typeKind id := by
  have word : Repeats peekName peekName id := repeats_peekName
  refine word.bind fun word again same => ?_
  obtain rfl : again = word := same
  refine repeats_advance.bind fun _ _ _ => ?_
  have record (second : Bool) : Repeats (do if second then return .recordStruct else
        let _ ← eatWord "class"
        return .recordType) (do if second then return .recordStruct else
        let _ ← eatWord "class"
        return .recordType) (id : TypeKind → TypeKind) :=
    .ite (fun _ => repeats_pure rfl) fun _ =>
      (repeats_eatWord "class").bind fun _ _ _ => repeats_pure rfl
  split
  · exact repeats_pure rfl
  · exact repeats_pure rfl
  · exact repeats_pure rfl
  · exact repeats_pure rfl
  · refine (repeats_eatWord "struct").bind fun second again same => ?_
    obtain rfl : again = second := same
    exact record _

theorem repeats_typeHead : Repeats typeHead typeHead id := by
  have rest (parameters : List String) : Repeats (do
        if ← atMark .leftParen then skipBalanced
        skipUntil [.leftBrace, .semicolon, .rightBrace]
        return parameters) (do
        if ← atMark .leftParen then skipBalanced
        skipUntil [.leftBrace, .semicolon, .rightBrace]
        return parameters) id := by
    have until_ : Repeats (do skipUntil [.leftBrace, .semicolon, .rightBrace]; return parameters)
        (do skipUntil [.leftBrace, .semicolon, .rightBrace]; return parameters) id := by
      rw [skipUntil_eq]
      exact (repeats_skipBy _).bind fun _ _ _ => repeats_pure rfl
    refine (repeats_atMark .leftParen).bind fun opened again same => ?_
    obtain rfl : again = opened := same
    exact .ite (fun _ => repeats_skipBalanced.bind fun _ _ _ => until_) fun _ => until_
  refine (repeats_atMark .less).bind fun opened again same => ?_
  obtain rfl : again = opened := same
  refine .ite (fun _ => ?_) fun _ => ?_
  · have parameters : Repeats typeParameters typeParameters id := closes_typeParameters.repeats
    refine parameters.bind fun found again same => ?_
    obtain rfl : again = found := same
    exact rest _
  · have none : Repeats (pure []) (pure []) (id : List String → List String) := repeats_pure rfl
    refine none.bind fun found again same => ?_
    obtain rfl : again = found := same
    exact rest _

/-- A closing brace is read again, and nothing else closes a declaration. -/
theorem repeats_closeDeclaration (start start' : Span) :
    Repeats (closeDeclaration start) (closeDeclaration start') id := by
  refine (repeats_eat .rightBrace).bind fun closed again same => ?_
  obtain rfl : again = closed := same
  refine .ite (fun _ => repeats_pure rfl) fun _ => ?_
  refine ⟨forward_throw rfl, fun file cursor later value run => ?_⟩
  cases run

end Heads

section Faults

/-- What is reported is not read again. -/
theorem not_silent {diagnostic : Diagnostic} {cursor later : Cursor}
    (reached : ({ cursor with recorded := cursor.recorded ++ [diagnostic] } : Cursor).Reaches later)
    (silent : later.recorded = cursor.recorded) : False := by
  have := reached.recorded.length_le
  rw [silent, List.length_append, List.length_singleton] at this
  omega

private theorem repeats_report (expected : String) :
    Repeats (do record (← unexpected expected); advance; return true)
      (do record (← unexpected expected); advance; return true) id := by
  refine ⟨fun file cursor => ?_, fun file cursor later value run silent => ?_⟩
  · rw [bind_apply, unexpected_apply]
    have reported := forward_record (cursor.isError_unexpected file expected)
    exact (reported.bind fun _ => forward_advance.bind fun _ => forward_pure true) file cursor
  · simp only [bind_apply, unexpected_apply, record_apply, advance_apply, pure_apply] at run
    cases run
    exact (not_silent (Cursor.reaches_advance _) silent).elim

theorem repeats_skipStrayBrace : Repeats skipStrayBrace skipStrayBrace id := by
  refine (repeats_atMark .rightBrace).bind fun stray again same => ?_
  obtain rfl : again = stray := same
  exact .ite (fun _ => repeats_report "declaration") fun _ => repeats_pure rfl

theorem repeats_skipFault : Repeats skipFault skipFault id := by
  have next : Repeats peek peek id := repeats_peek
  refine next.bind fun next again same => ?_
  obtain rfl : again = next := same
  split
  · exact repeats_report "declaration"
  · exact repeats_pure rfl

end Faults

section Stops

/-- The reader of types stops within some tokens, or in front of what comes behind
them. -/
def StopsBy (tokens : List Token) (later : Cursor) : Prop :=
  (∃ token ∈ tokens, token.kind.stops = true) ∨ later.peek? 0 = none ∨
    later.peek? 0 = some (.mark .rightBrace)

theorem StopsBy.behind {tokens : List Token} {later : Cursor} (stops : StopsBy tokens later)
    (before : List Token) : StopsBy (before ++ tokens) later := by
  obtain ⟨token, member, isStop⟩ | comes := stops
  · exact .inl ⟨token, List.mem_append_right _ member, isStop⟩
  · exact .inr comes

private theorem upToStop_of_stops {kinds : List TokenKind}
    (stops : ∃ kind ∈ kinds, kind.stops = true) (more : List TokenKind) :
    TokenKind.upToStop (kinds ++ more) = TokenKind.upToStop kinds := by
  induction kinds with
  | nil =>
      obtain ⟨kind, member, -⟩ := stops
      cases member
  | cons first kinds ih =>
      rw [List.cons_append, TokenKind.upToStop, TokenKind.upToStop]
      by_cases isStop : first.stops = true
      · rw [if_pos isStop, if_pos isStop]
      · obtain ⟨kind, member, stopsThere⟩ := stops
        rw [if_neg isStop, if_neg isStop, ih]
        refine ⟨kind, (List.mem_cons.mp member).resolve_left ?_, stopsThere⟩
        rintro rfl
        exact isStop stopsThere

private theorem upToStop_append {more others : List TokenKind}
    (same : TokenKind.upToStop others = TokenKind.upToStop more) (kinds : List TokenKind) :
    TokenKind.upToStop (kinds ++ others) = TokenKind.upToStop (kinds ++ more) := by
  induction kinds with
  | nil => exact same
  | cons first kinds ih =>
      rw [List.cons_append, List.cons_append, TokenKind.upToStop, TokenKind.upToStop, ih]

/-- The reader of types sees the same in front of the same tokens if it stops by
their end. -/
theorem StopsBy.sameUpToStop {tokens copies : List Token} {here there later behind : Cursor}
    (stops : StopsBy tokens later) (kinds : copies.map (·.kind) = tokens.map (·.kind))
    (first : behind.peek? 0 = later.peek? 0)
    (hereIs : here.remaining = tokens ++ later.remaining)
    (thereIs : there.remaining = copies ++ behind.remaining) : here.SameUpToStop there := by
  rw [Cursor.SameUpToStop, hereIs, thereIs, List.map_append, List.map_append, kinds]
  obtain ⟨token, member, isStop⟩ | comes := stops
  · have stops : ∃ kind ∈ tokens.map (·.kind), kind.stops = true :=
      ⟨token.kind, List.mem_map_of_mem member, isStop⟩
    rw [upToStop_of_stops stops, upToStop_of_stops stops]
  · refine upToStop_append ?_ _
    rcases comes with nothing | brace
    · have noTokens {cursor : Cursor} (nothing : cursor.peek? 0 = none) :
          cursor.remaining = [] := by
        simpa [Cursor.peek?] using nothing
      rw [noTokens nothing, noTokens (first.trans nothing)]
    · have atBrace {cursor : Cursor} (next : cursor.peek? 0 = some (.mark .rightBrace)) :
          TokenKind.upToStop (cursor.remaining.map (·.kind)) = [.mark .rightBrace] := by
        obtain ⟨token, kind, remaining⟩ := Cursor.remaining_eq_cons next
        rw [remaining, List.map_cons, TokenKind.upToStop, kind]
        rfl
      rw [atBrace brace, atBrace (first.trans brace)]

private theorem memberAction_stops (kind : TokenKind) :
    match memberAction kind with
    | .stop => kind = .mark .rightBrace
    | .stepAndStop | .block => kind.stops = true
    | .step | .whole => True := by
  cases kind with
  | mark mark => cases mark <;> first | rfl | trivial
  | _ => trivial

/-- Skipping a member goes as far as the reader of types may look. -/
theorem stopsBy_of_skipMember {file : SourceFile} {cursor later : Cursor}
    (run : skipMember file cursor = .ok () later) :
    ∃ tokens, cursor.remaining = tokens ++ later.remaining ∧ StopsBy tokens later := by
  rw [skipMember_eq] at run
  let keeps (_ : Unit) (reached : Cursor) : Prop :=
    ∃ tokens, cursor.remaining = tokens ++ reached.remaining
  let ends (_ : Unit) (reached : Cursor) : Prop :=
    ∃ tokens, cursor.remaining = tokens ++ reached.remaining ∧ StopsBy tokens reached
  refine @loop_induction _ _ file (progresses_skipRound memberAction) keeps ends ?_ _ _ _ _
    ⟨[], rfl⟩ run
  intro state here behind outcome kept round
  obtain ⟨before, passed⟩ := kept
  rw [skipRound_apply] at round
  cases next : here.peek? 0 with
  | none =>
      simp only [next] at round
      cases round
      exact ⟨before, passed, .inr (.inl next)⟩
  | some kind =>
      obtain ⟨token, isKind, remaining⟩ := Cursor.remaining_eq_cons next
      have stepped : cursor.remaining = before ++ [token] ++ here.advance.remaining := by
        rw [passed, remaining, List.append_assoc]
        rfl
      simp only [next] at round
      have stops := memberAction_stops kind
      obtain ⟨reached, skipped, onward, less⟩ := skipBalanced_ok file here
      obtain ⟨group, passedGroup, -⟩ := onward.passed
      have behindGroup : cursor.remaining = before ++ group ++ reached.remaining := by
        rw [passed, passedGroup, List.append_assoc]
      cases does : memberAction kind with
      | stop =>
          simp only [does] at round stops
          cases round
          exact ⟨before, passed, .inr (.inr (next.trans (congrArg some stops)))⟩
      | stepAndStop =>
          simp only [does] at round stops
          cases round
          exact ⟨_, stepped, .inl ⟨token, by simp, by rw [isKind, stops]⟩⟩
      | step =>
          simp only [does] at round
          cases round
          exact ⟨_, stepped⟩
      | whole =>
          simp only [does, skipped] at round
          cases round
          exact ⟨_, behindGroup⟩
      | block =>
          have member : token ∈ before ++ group := by
            cases group with
            | nil =>
                have := less (by simp [remaining])
                rw [passedGroup, List.nil_append] at this
                omega
            | cons first group =>
                rw [remaining, List.cons_append] at passedGroup
                simp [(List.cons.inj passedGroup).1]
          simp only [does, skipped] at round stops
          split at round
          · cases round
            exact ⟨_, behindGroup⟩
          · cases round
            exact ⟨_, behindGroup, .inl ⟨token, member, by rw [isKind, stops]⟩⟩

end Stops

section Methods

variable {start start' : Span} {lists lists' : List AttributeList} {words words' : List Modifier}
  {file : SourceFile} {cursor later : Cursor}

/-- A member that is no method has been skipped as far as the reader of types may
look. -/
private theorem stopsBy_of_noMethod (run : method? start lists words file cursor = .ok none later) :
    ∃ tokens, cursor.remaining = tokens ++ later.remaining ∧ StopsBy tokens later := by
  have skipped {middle ended : Cursor} (reached : cursor.Reaches middle)
      (skip : skipMember file middle = .ok () ended) :
      ∃ tokens, cursor.remaining = tokens ++ ended.remaining ∧ StopsBy tokens ended := by
    obtain ⟨before, passed, -⟩ := reached.passed
    obtain ⟨tokens, passedBehind, stops⟩ := stopsBy_of_skipMember skip
    exact ⟨before ++ tokens, by rw [passed, passedBehind, List.append_assoc], stops.behind before⟩
  have skips (middle : Cursor) : ∃ ended, skipMember file middle = .ok () ended := by
    rw [skipMember_eq]
    exact skipBy_ok memberAction file middle
  simp only [method?, bind_apply, get_apply, attempt_apply] at run
  cases first : type file cursor with
  | error diagnostic reached =>
      obtain ⟨ended, skip⟩ := skips cursor
      simp only [first, bind_apply, set_apply, skip, pure_apply] at run
      cases run
      exact skipped (.refl cursor) skip
  | ok returnType reached =>
      have onward := forward_type.of_ok first
      simp only [first, bind_apply, atIdent_apply, atWord_apply, ite_run] at run
      split at run
      · obtain ⟨ended, skip⟩ := skips reached
        simp only [skip, pure_apply] at run
        cases run
        exact skipped onward skip
      cases named : memberName file reached with
      | error diagnostic behindName => simp [named] at run
      | ok found behindName =>
          have name : Repeats memberName memberName fun found => (found.1, found.2.2) :=
            repeats_memberName
          have onward := onward.trans (name.forward.of_ok named)
          simp only [named, atMark_apply] at run
          split at run
          · obtain ⟨ended, skip⟩ := skips behindName
            simp only [skip, pure_apply] at run
            cases run
            exact skipped onward skip
          cases list : skipBalanced file behindName with
          | error diagnostic reached => simp [list] at run
          | ok _ behindList =>
          cases skip : skipUntil [.leftBrace, .arrow, .semicolon, .rightBrace] file behindList with
          | error diagnostic reached => simp [list, skip] at run
          | ok _ behind =>
          cases body : methodBody file behind <;>
            simp [list, skip, body] at run

/-- Equal parts make equal methods, apart from where they stand. -/
theorem unplaced_of_parts {span span' : Span} {returnType returnType' : TypeExpr}
    {tail tail' : MethodTail}
    (sameLists : lists'.map AttributeList.unplaced = lists.map AttributeList.unplaced)
    (sameWords : words'.map (·.keyword) = words.map (·.keyword))
    (sameType : returnType'.unplaced = returnType.unplaced)
    (sameTail : tail'.unplaced = tail.unplaced) :
    MethodDecl.unplaced ⟨span', lists', words', returnType', tail'.name, tail'.nameSpan,
        tail'.typeParameters, tail'.body⟩ =
      MethodDecl.unplaced ⟨span, lists, words, returnType, tail.name, tail.nameSpan,
        tail.typeParameters, tail.body⟩ := by
  obtain ⟨name, nameSpan, typeParameters, body⟩ := tail
  obtain ⟨name', nameSpan', typeParameters', body'⟩ := tail'
  obtain ⟨rfl, -, rfl, rfl⟩ := MethodTail.mk.inj sameTail
  simp only [MethodDecl.unplaced, sameLists, Modifier.map_unplaced sameWords, sameType]

/-- A method, or a member that is skipped in its place, is read again in front of
the same. -/
theorem repeats_method?
    (sameLists : lists'.map AttributeList.unplaced = lists.map AttributeList.unplaced)
    (sameWords : words'.map (·.keyword) = words.map (·.keyword)) :
    Repeats (method? start lists words) (method? start' lists' words')
      (Option.map MethodDecl.unplaced) := by
  have tailRepeats : Repeats methodTail methodTail (Option.map MethodTail.unplaced) :=
    repeats_methodTail
  refine ⟨forward_method? start lists words, fun file cursor later found run silent _ => ?_⟩
  have whole := run
  rw [method?_apply] at run
  cases first : type file cursor with
  | error diagnostic reached =>
      obtain ⟨ended, skip⟩ : ∃ ended, skipMember file cursor = .ok () ended := by
        rw [skipMember_eq]
        exact skipBy_ok memberAction file cursor
      simp only [first, bind_apply, skip, pure_apply] at run
      cases run
      obtain ⟨tokens, passed, stops⟩ := stopsBy_of_noMethod whole
      have skips : Repeats skipMember skipMember id := repeats_skipMember
      obtain ⟨skipped, passedSkip, again⟩ :=
        skips.rereads file cursor later () skip silent trivial
      obtain rfl : skipped = tokens := List.append_cancel_right (passedSkip.symm.trans passed)
      refine ⟨skipped, passed, fun other previous copies rest recorded alike inFront => ?_⟩
      obtain ⟨_, -, skipAgain⟩ := again other previous copies rest recorded alike inFront
      have ahead : cursor.SameUpToStop ⟨previous, copies ++ rest, recorded⟩ :=
        stops.sameUpToStop alike.kinds inFront.first passed rfl
      have outcome := mirrors_type file other cursor _ ahead
      refine ⟨none, rfl, ?_⟩
      rw [method?_apply]
      cases firstAgain : type other ⟨previous, copies ++ rest, recorded⟩ with
      | ok again reachedAgain =>
          rw [first, firstAgain] at outcome
          cases outcome
      | error different reachedAgain => simp only [bind_apply, skipAgain, pure_apply]
  | ok returnType reached =>
  simp only [first] at run
  cases tailRun : methodTail file reached with
  | error diagnostic ended => simp [tailRun] at run
  | ok tail ended =>
  obtain rfl : ended = later := by
    cases tail <;> simp only [tailRun, EStateM.Result.ok.injEq] at run <;> exact run.2
  obtain ⟨silentType, silentTail⟩ :=
    (forward_type.of_ok first).recorded_eq (tailRepeats.forward.of_ok tailRun) silent
  obtain ⟨rear, passedTail, tailAgain⟩ :=
    tailRepeats.rereads file reached ended tail tailRun silentTail trivial
  cases tail with
  | none =>
      simp only [tailRun] at run
      cases run
      obtain ⟨tokens, passed, stops⟩ := stopsBy_of_noMethod whole
      obtain ⟨front, passedType, -⟩ := (forward_type.of_ok first).passed
      obtain rfl : tokens = front ++ rear := by
        refine List.append_cancel_right (passed.symm.trans ?_)
        rw [passedType, passedTail, List.append_assoc]
      refine ⟨front ++ rear, passed, fun other previous copies rest recorded alike inFront => ?_⟩
      have ahead : cursor.SameUpToStop ⟨previous, copies ++ rest, recorded⟩ :=
        stops.sameUpToStop alike.kinds inFront.first passed rfl
      have outcome := mirrors_type file other cursor _ ahead
      refine ⟨none, rfl, ?_⟩
      rw [method?_apply]
      cases firstAgain : type other ⟨previous, copies ++ rest, recorded⟩ with
      | error different reachedAgain =>
          rw [first, firstAgain] at outcome
          cases outcome
      | ok again reachedAgain =>
          rw [first, firstAgain] at outcome
          obtain ⟨-, abreast⟩ : again.unplaced = returnType.unplaced ∧
              Cursor.Abreast cursor ⟨previous, copies ++ rest, recorded⟩ reached reachedAgain := by
            cases outcome with
            | ok same abreast => exact ⟨same, abreast⟩
          obtain ⟨copiesFront, copiesRear, rfl, alikeFront, alikeRear⟩ := alike.of_append
          obtain rfl : reachedAgain =
              ⟨Token.lastOf previous copiesFront, copiesRear ++ rest, recorded⟩ := by
            rw [List.append_assoc] at abreast
            exact abreast.eq_of_length passedType alikeFront.length_eq
          rw [Token.lastOf_append] at inFront ⊢
          obtain ⟨final, same, runAgain⟩ := tailAgain other (Token.lastOf previous copiesFront)
            copiesRear rest recorded alikeRear inFront
          obtain rfl : final = none := Option.map_eq_none_iff.mp same
          simp only [runAgain]
  | some tail =>
      simp only [tailRun] at run
      cases run
      obtain ⟨⟨word, next⟩, -⟩ := passesName_of_methodTail tailRun
      obtain ⟨front, passedType, typeAgain⟩ := repeats_type.rereads file cursor reached returnType
        first silentType (.of_kind next (.inr (.inr (.inr rfl))))
      refine ⟨front ++ rear, by rw [passedType, passedTail, List.append_assoc], ?_⟩
      intro other previous copies rest recorded alike inFront
      obtain ⟨copiesFront, copiesRear, rfl, alikeFront, alikeRear⟩ := alike.of_append
      rw [Token.lastOf_append] at inFront ⊢
      obtain ⟨again, sameType, runType⟩ := typeAgain other previous copiesFront (copiesRear ++ rest)
        recorded alikeFront (alikeRear.sameNext inFront passedTail rfl)
      obtain ⟨final, sameTail, runTail⟩ := tailAgain other (Token.lastOf previous copiesFront)
        copiesRear rest recorded alikeRear inFront
      obtain ⟨tail', rfl, same⟩ := Option.map_eq_some_iff.mp sameTail
      refine ⟨some ⟨(Cursor.mk (Token.lastOf (Token.lastOf previous copiesFront) copiesRear) rest
        recorded).spanFrom start', lists', words', again, tail'.name, tail'.nameSpan,
        tail'.typeParameters, tail'.body⟩, ?_, ?_⟩
      · exact congrArg some (unplaced_of_parts sameLists sameWords sameType same)
      · rw [List.append_assoc, method?_apply, runType]
        simp only [runTail]

end Methods

end Parser

end ErrorAccessors
