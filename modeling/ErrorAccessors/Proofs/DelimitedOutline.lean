/-
# The delimiters of a text with an outline

A text that has an outline may hold delimiters that are not properly nested.  What is known
of them is what the reader asks for: a body, an attribute list or a tuple that is read ends
with the delimiter that belongs to the one that it begins with, and what is skipped ends when
as many delimiters are closed as were opened.  Outside of these parts no delimiter is opened
but in type arguments, and no brace is closed.

A round over members steps over a token by itself if nothing was read.  Nothing is known of
such a token, but a member that is read without a diagnostic always uses up a token.
-/

import ErrorAccessors.Proofs.CountedTokens
import ErrorAccessors.Proofs.ExchangedOutline
import ErrorAccessors.Proofs.LaidDeclarations
import ErrorAccessors.Proofs.ProperBinding

namespace ErrorAccessors

namespace Parser

variable {α β σ : Type} {file : SourceFile} {stray : Bool} {here : Cursor}

section Types

theorem outlines_type : Outlines stray type := by
  apply Outlines.of_forall
  intro file here later read run
  obtain ⟨tokens, passed, spells⟩ := type_spelled run
  exact ⟨forward_type.of_ok run, fun _ => ⟨tokens, passed, Outlined.of_spells spells⟩⟩

/-- Type arguments may end with something that is no type. -/
theorem outlines_argumentsIfAny : Outlines stray (argumentsIfAny type) := by
  apply Outlines.of_forall
  intro file here later types run
  have reached := (forward_argumentsIfAny forward_type).of_ok run
  rw [argumentsIfAny_apply] at run
  split at run
  · next opened =>
      have spelled : TypesSpelled type := fun file cursor => typeWithin_spelled _ file cursor
      obtain given | ⟨found, ended, tokens, given, passed, kinds, spells, areKinds⟩ :=
        typeArguments_spelled file forward_type spelled opened
      · rw [given] at run
        cases run
        exact .refl here
      · rw [given] at run
        cases run
        refine ⟨reached, fun _ => ⟨tokens, passed, ?_⟩⟩
        rw [areKinds]
        exact .arguments spells
  · cases run
    exact .refl here

end Types

section Attributes

theorem outlines_argumentName : Outlines stray argumentName := by
  apply Outlines.of_forall
  intro file here later name run
  rw [argumentName_apply] at run
  cases named : (here.peek? 0).bind TokenKind.ident? with
  | none =>
      simp only [named] at run
      cases run
      exact .refl here
  | some word =>
      simp only [named] at run
      have isName := Cursor.peek?_eq_ident named
      have second := Cursor.peek?_advance isName 0
      split at run
      · next isNamed =>
          cases run
          apply Cursor.Passed.trans (.plain isName rfl rfl)
          obtain isColon | isEquals := isNamed
          · exact .plain (second.trans isColon) rfl rfl
          · exact .plain (second.trans isEquals) rfl rfl
      · cases run
        exact .refl here

/-- What an argument holds is skipped up to a delimiter that it does not open. -/
theorem outlines_attributeArgument : Outlines stray attributeArgument := by
  refine .behind_any nextSpan_apply fun start => outlines_argumentName.bind fun name => ?_
  apply Outlines.of_forall
  intro file here later argument run
  obtain ⟨middle, skipped⟩ := skipBy_ok argumentAction file here
  have passed : here.Passed stray middle :=
    (outlines_skipBy skipsOver_argumentAction).of_ok skipped
  obtain ⟨tokens, remaining⟩ := ((forward_skipBy argumentAction).of_ok skipped).remaining
  change argumentRest start name file here = .ok argument later at run
  rw [argumentRest_apply start name file skipped remaining.symm] at run
  split at run
  · cases run
  · cases run
    exact passed

/-- A list that is read ends with the mark that closes it. -/
theorem ensures_closedList {opening closing : Mark} {item : Parser α}
    (pair : (opening, closing) ∈ Mark.delimiters)
    (outlines : Outlines (opening == .leftBrace) item) :
    Ensures file (here.Entered stray opening) (listUpTo closing item) fun _ =>
      here.Passed stray := by
  have rounds : Outlines (opening == .leftBrace) (loop [] (itemRound closing item)) := by
    refine outlines_loop (fun found => ?_) []
    refine .behind_any (fun file cursor => atMark_apply file cursor _) fun _ =>
      .ite (fun _ => outlines_pure _) fun _ => outlines.bind fun value => ?_
    exact (outlines_eat rfl rfl).bind fun _ => .ite (fun _ => outlines_pure _) fun _ =>
      outlines_pure _
  refine rounds.inside.bind fun found => (ensures_leave pair).bind fun _ => ?_
  exact (outlines_pure found).ensures

theorem outlines_dottedName : Outlines stray dottedName := by
  refine outlines_expectIdent.bind fun ⟨first, _⟩ => outlines_loop (fun found => ?_) [first]
  refine (outlines_eat rfl rfl).bind fun _ => .ite (fun _ => ?_) fun _ => outlines_pure _
  exact outlines_expectIdent.bind fun ⟨name, _⟩ => outlines_pure _

/-- A word in front of two colons is a qualifier. -/
theorem outlines_qualifier : Outlines stray (do if ← atQualifier then advance; advance) := by
  have look (file : SourceFile) (cursor : Cursor) : atQualifier file cursor =
      .ok (((cursor.peek? 0).bind TokenKind.ident?).isSome &&
        cursor.peek? 1 == some (.mark .doubleColon)) cursor := rfl
  intro file here
  refine .behind_look look (.ite (fun isQualified => ?_) fun _ => outlines_pure _ file here)
  obtain ⟨isWord, second⟩ := Bool.and_eq_true_iff.mp isQualified
  obtain ⟨word, isWord⟩ := Option.isSome_iff_exists.mp isWord
  have isName := Cursor.peek?_eq_ident isWord
  have first : Ensures file (· = here) advance fun _ cursor =>
      here.Passed stray cursor ∧ cursor.peek? 0 = some (.mark .doubleColon) := by
    intro cursor later _ isHere run
    rw [isHere] at run
    cases run
    exact ⟨.plain isName rfl rfl, (Cursor.peek?_advance isName 0).trans (eq_of_beq second)⟩
  exact first.bind fun _ => ensures_advanceBehind rfl rfl

theorem outlines_appliedArguments : Outlines stray appliedArguments := by
  intro file here cursor later found isHere run
  rw [isHere, appliedArguments, eat_bind_apply] at run
  split at run
  · next opened =>
      have lists : Ensures file (here.Entered stray .leftParen)
          (listUpTo .rightParen attributeArgument) fun _ => here.Passed stray :=
        ensures_closedList (by decide) outlines_attributeArgument
      exact lists _ _ _ (Cursor.Passed.enter (.refl here) opened) run
  · cases run
    exact .refl here

theorem outlines_appliedAttribute : Outlines stray appliedAttribute := by
  rw [appliedAttribute_eq]
  refine .behind_any nextSpan_apply fun start => outlines_qualifier.bind fun _ => ?_
  refine outlines_dottedName.bind fun name => outlines_argumentsIfAny.bind fun _ => ?_
  exact outlines_appliedArguments.bind fun arguments => outlines_spanned start _

theorem outlines_attributeTarget : Outlines stray attributeTarget := by
  intro file here
  refine .behind_look atIdent_apply ?_
  refine .behind_look (fun file cursor => secondIsMark_apply file cursor _) ?_
  refine .ite (fun isTarget => ?_) fun _ => outlines_pure _ file here
  have second := eq_of_beq (Bool.and_eq_true_iff.mp isTarget).2
  have named : Ensures file (· = here) expectIdent fun _ cursor =>
      here.Passed stray cursor ∧ cursor.peek? 0 = some (.mark .colon) := ensures_nameBefore second
  refine named.bind fun ⟨name, _⟩ => (ensures_advanceBehind rfl rfl).bind fun _ => ?_
  exact (outlines_pure _).ensures

theorem outlines_attributeList : Outlines stray attributeList := by
  refine .behind_any nextSpan_apply fun start => ?_
  intro file here
  have starts : Ensures file (· = here) (expect .leftBracket) fun _ =>
      here.Entered stray .leftBracket :=
    (ensures_enter .leftBracket).imp (fun _ isHere => isHere ▸ .refl _) fun _ _ => id
  refine starts.bind fun _ => outlines_attributeTarget.inside.bind fun target => ?_
  refine (ensures_closedList (by decide) outlines_appliedAttribute).bind fun attributes => ?_
  exact (outlines_spanned start _).ensures

theorem outlines_attributeLists : Outlines stray attributeLists := by
  refine outlines_loop (fun found => ?_) []
  refine .behind_any (fun file cursor => atMark_apply file cursor _) fun _ => .ite (fun _ => ?_)
    fun _ => outlines_pure _
  exact outlines_attributeList.bind fun list => outlines_pure _

end Attributes

section Members

theorem outlines_modifiers : Outlines stray modifiers := by
  refine outlines_loop (fun found file here => .behind_look peekName_apply ?_) []
  cases comes : (here.peek? 0).bind TokenKind.ident? with
  | none => exact outlines_pure _ file here
  | some word =>
      refine .behind_look (fun file cursor => secondIsMark_apply file cursor _) ?_
      refine .ite (fun _ => outlines_pure _ file here) fun _ => .behind_look nextSpan_apply ?_
      exact (ensures_advance (Cursor.peek?_eq_ident comes) rfl rfl).onward fun _ => outlines_pure _

theorem outlines_typeParameters : Outlines stray typeParameters := by
  refine (outlines_expect rfl rfl).bind fun _ =>
    (outlines_loop (fun found => ?_) []).bind fun found =>
    (outlines_expect rfl rfl).bind fun _ => outlines_pure found
  refine outlines_attributeLists.bind fun _ file here => ?_
  refine .behind_look secondIsIdent_apply ?_
  refine .behind_look (fun file cursor => atWord_apply file cursor _) ?_
  refine .behind_look (fun file cursor => atWord_apply file cursor _) ?_
  have named : Outlines stray (do
      let named ← expectIdent
      if ← eat .comma then return ForInStep.yield (found ++ [named.1])
      else return ForInStep.done (found ++ [named.1])) := by
    refine outlines_expectIdent.bind fun named => (outlines_eat rfl rfl).bind fun _ => ?_
    exact .ite (fun _ => outlines_pure _) fun _ => outlines_pure _
  refine .ite (fun isVariance => ?_) fun _ => named file here
  obtain ⟨-, isWord⟩ := Bool.and_eq_true_iff.mp isVariance
  obtain ⟨word, comes⟩ : ∃ word, (here.peek? 0).bind TokenKind.ident? = some word := by
    obtain isIn | isOut := Bool.or_eq_true_iff.mp isWord
    · exact ⟨_, eq_of_beq isIn⟩
    · exact ⟨_, eq_of_beq isOut⟩
  exact (ensures_advance (Cursor.peek?_eq_ident comes) rfl rfl).onward fun _ => named

theorem outlines_memberName : Outlines stray memberName := by
  refine outlines_expectIdent.bind fun ⟨first, firstSpan⟩ => ?_
  refine outlines_loop (fun ⟨name, span, parameters⟩ => ?_) (first, firstSpan, [])
  have goesOn (parameters : List String) : Outlines stray (do
      if (← atMark .dot) && (← secondIsIdent) then
        advance
        let named ← expectIdent
        return ForInStep.yield (named.1, named.2, ([] : List String))
      else return ForInStep.done (name, span, parameters)) := by
    intro file here
    refine .behind_look (fun file cursor => atMark_apply file cursor _) ?_
    refine .behind_look secondIsIdent_apply
      (.ite (fun goesOn => ?_) fun _ => outlines_pure _ file here)
    have isDot := eq_of_beq (Bool.and_eq_true_iff.mp goesOn).1
    exact (ensures_advance isDot rfl rfl).onward fun _ =>
      outlines_expectIdent.bind fun _ => outlines_pure _
  refine .behind_any (fun file cursor => atMark_apply file cursor _) fun _ =>
    .ite (fun _ => ?_) fun _ => ?_
  · exact outlines_typeParameters.bind goesOn
  · exact (outlines_pure _).bind goesOn

theorem outlines_skipMember : Outlines true skipMember := by
  rw [skipMember_eq]
  exact outlines_skipBy skipsOver_memberAction

/-- What stands in front of a body is skipped, but no brace is. -/
theorem outlines_skipUntil {marks : List Mark} (opening : .leftBrace ∈ marks)
    (closing : .rightBrace ∈ marks) : Outlines true (skipUntil marks) := by
  rw [skipUntil_eq]
  exact outlines_skipBy (skipsOver_untilAction opening closing)

theorem outlines_methodBody : Outlines true methodBody := by
  intro file here
  apply ensures_ifMark
  · exact fun block => (ensures_skipBalanced block rfl).onward fun _ => outlines_pure _
  have statement : Outlines true skipStatement := by
    rw [skipStatement_eq]
    exact outlines_skipBy skipsOver_statementAction
  refine (outlines_eat rfl rfl file here).onward fun _ => .ite (fun _ => ?_) fun _ => ?_
  · exact statement.bind fun _ => outlines_pure _
  · exact (outlines_eat rfl rfl).bind fun _ =>
      .ite (fun _ => outlines_pure _) fun _ => outlines_failExpecting _

theorem outlines_methodTail : Outlines true methodTail := by
  refine .behind_any (fun _ _ => rfl) fun _ => .ite (fun _ => ?_) fun _ => ?_
  · exact outlines_skipMember.bind fun _ => outlines_pure _
  refine outlines_memberName.bind fun ⟨name, span, parameters⟩ file here => ?_
  refine .behind_look (fun file cursor => atMark_apply file cursor _)
    (.ite (fun _ => ?_) fun isList => ?_)
  · exact (outlines_skipMember file here).onward fun _ => outlines_pure _
  · have opened : here.peek? 0 = some (.mark .leftParen) := by simpa using isList
    refine (ensures_skipBalanced opened rfl).onward fun _ => ?_
    refine (outlines_skipUntil (by decide) (by decide)).bind fun _ => ?_
    exact outlines_methodBody.bind fun _ => outlines_pure _

theorem outlines_method? (start : Span) (lists : List AttributeList) (words : List Modifier) :
    Outlines true (method? start lists words) := by
  apply Outlines.of_forall
  intro file here later found run
  rw [method?_apply] at run
  cases typed : type file here with
  | error diagnostic middle =>
      simp only [typed] at run
      exact (outlines_skipMember.bind fun _ => outlines_pure none).of_ok run
  | ok returnType middle =>
      simp only [typed] at run
      cases rest : methodTail file middle with
      | error diagnostic ended => simp [rest] at run
      | ok tail ended =>
          have passed := (outlines_type.of_ok typed).trans (outlines_methodTail.of_ok rest)
          simp only [rest] at run
          cases tail with
          | none =>
              cases run
              exact passed
          | some tail =>
              cases run
              exact passed

end Members

section Rounds

variable {atStop : Parser Bool} {member : Parser (Option α)} {add : σ → α → σ}

/-- Recovering from a member that cannot be read records a diagnostic. -/
theorem recorded_of_memberOrRecovery {file : SourceFile} {cursor middle later : Cursor}
    {before : Nat} {diagnostic : Diagnostic} {found : Option α} (forward : Forward member)
    (read : member file cursor = .error diagnostic middle)
    (run : memberOrRecovery member before file cursor = .ok found later) :
    later.recorded ≠ cursor.recorded := by
  obtain ⟨reached, isError⟩ := forward.of_error read
  let noted : Cursor := { middle with recorded := middle.recorded ++ [diagnostic] }
  have notes : middle.Reaches noted := (forward_record isError).of_ok (record_apply file middle _)
  have rest : Forward (do recoverFrom before; return (none : Option α)) :=
    (forward_recoverFrom before).bind fun _ => forward_pure none
  have recovers :
      (do recoverFrom before; return (none : Option α)) file noted = .ok found later := by
    simp only [memberOrRecovery, orElse, read] at run
    rwa [bind_apply, record_apply] at run
  apply (reached.trans notes).recorded_ne (rest.of_ok recovers)
  intro same
  simpa [noted] using (reached.recorded_eq notes same).2

/-- Where a member cannot be read, going through members records errors. -/
theorem reported_of_memberLoop (stops : StopsAtEnd atStop) (forward : Forward member)
    {file : SourceFile} {cursor middle later : Cursor} {diagnostic : Diagnostic} {state result : σ}
    (goesOn : atStop file cursor = .ok false cursor)
    (noFault : ∀ spelling, cursor.peek? 0 ≠ some (.fault spelling))
    (fails : member file cursor = .error diagnostic middle)
    (run : memberLoop atStop member add state file cursor = .ok result later) :
    ∃ errors, errors ≠ [] ∧ later.recorded = cursor.recorded ++ errors ∧
      ∀ error ∈ errors, error.isError = true := by
  have reached : cursor.Reaches later := (forward_memberLoop stops forward state).of_ok run
  obtain ⟨errors, recorded, areErrors⟩ := reached.reported
  refine ⟨errors, ?_, recorded, areErrors⟩
  rintro rfl
  rw [List.append_nil] at recorded
  have skipped : skipFault file cursor = .ok false cursor := by
    rcases skipFault_apply file cursor with ⟨spelling, _, fault, -⟩ | ⟨-, skipped⟩
    · exact absurd fault (noFault spelling)
    · exact skipped
  have round : memberRound atStop member add state file cursor = (do
      let read ← memberOrRecovery member cursor.remaining.length
      stepIfStuck cursor.remaining.length
      return ForInStep.yield (addIfAny add state read)) file cursor := by
    simp only [memberRound_eq, bind_apply, goesOn, skipped, Bool.false_eq_true, if_false, get_apply]
  have progress : Progresses (memberRound atStop member add) :=
    progresses_memberRound stops forward
  rw [bind_apply] at round
  cases read : memberOrRecovery member cursor.remaining.length file cursor with
  | error other ended =>
      rw [read] at round
      cases run.symm.trans (loop_of_error file progress round)
  | ok found reached =>
      rw [read] at round
      simp only [bind_apply] at round
      cases stepped : stepIfStuck cursor.remaining.length file reached with
      | error other ended =>
          rw [stepped] at round
          cases run.symm.trans (loop_of_error file progress round)
      | ok _ ended =>
          rw [stepped] at round
          have rest : memberLoop atStop member add (addIfAny add state found) file ended =
              .ok result later := (loop_of_yield file progress round).symm.trans run
          have first := (forward_memberOrRecovery forward _).of_ok read
          have second := ((forward_stepIfStuck _).of_ok stepped).trans
            ((forward_memberLoop stops forward _).of_ok rest)
          exact first.recorded_ne second (recorded_of_memberOrRecovery forward fails read) recorded

/-- Members are passed if each of them is, and if one that is read without a diagnostic uses up a
token. -/
theorem outlines_memberLoop (stops : StopsAtEnd atStop) (forward : Forward member)
    (outlines : Outlines stray member)
    (moves : ∀ (file : SourceFile) (cursor later : Cursor) (found : Option α),
      atStop file cursor = .ok false cursor → member file cursor = .ok found later →
        later.recorded = cursor.recorded → cursor.IsBefore later) (state : σ) :
    Outlines stray (memberLoop atStop member add state) := by
  refine outlines_loop (fun state => .of_forall fun file here later outcome run => ?_) state
  change memberRound atStop member add state file here = .ok outcome later at run
  have reached := (forward_memberRound stops forward state).of_ok run
  obtain ⟨stop, stopRun, -⟩ := stops file here
  rw [memberRound_eq, bind_apply, stopRun] at run
  cases stop with
  | true =>
      cases run
      exact .refl here
  | false =>
  simp only [Bool.false_eq_true, if_false, bind_apply] at run
  obtain ⟨_, middle, -, fault, -, recorded⟩ | ⟨-, noFault⟩ := skipFault_apply file here
  · simp only [fault, if_true, pure_apply] at run
    cases run
    exact .of_recorded reached recorded
  simp only [noFault, Bool.false_eq_true, if_false, bind_apply, get_apply] at run
  cases read : memberOrRecovery member here.remaining.length file here with
  | error diagnostic middle => simp [read] at run
  | ok found middle =>
      have first := (forward_memberOrRecovery forward _).of_ok read
      simp only [read] at run
      cases stepped : stepIfStuck here.remaining.length file middle with
      | error diagnostic ended => simp [stepped] at run
      | ok _ ended =>
          have second := (forward_stepIfStuck _).of_ok stepped
          simp only [stepped, pure_apply] at run
          cases run
          by_cases silent : middle.recorded = here.recorded
          · -- nothing was recorded, so the member was read and used up a token
            cases ran : member file here with
            | error diagnostic failed =>
                exact absurd silent (recorded_of_memberOrRecovery forward ran read)
            | ok value passed =>
                simp only [memberOrRecovery, orElse, ran] at read
                cases read
                have less : middle.remaining.length ≠ here.remaining.length :=
                  Nat.ne_of_lt (moves file here middle found stopRun ran silent)
                simp only [stepIfStuck, bind_apply, get_apply, if_neg less, pure_apply] at stepped
                cases stepped
                exact outlines.of_ok ran
          · exact .of_recorded reached (first.recorded_ne second silent)

end Rounds

section Moving

theorem isBefore_advance {kind : TokenKind} (next : here.peek? 0 = some kind) :
    here.IsBefore here.advance :=
  Nat.lt_of_succ_le (Nat.le_of_eq (Cursor.length_advance next))

theorem Uses.ite {condition : Prop} [Decidable condition] {first second : Parser α}
    (holds : Uses first) (fails : Uses second) : Uses (if condition then first else second) := by
  split
  · exact holds
  · exact fails

theorem uses_type : Uses type := by
  intro file cursor later read run
  obtain ⟨tokens, passed, spells⟩ := type_spelled run
  have some : tokens ≠ [] := by
    rintro rfl
    obtain ⟨_, _, isName, -⟩ | ⟨_, isParen⟩ := spells.beginsWell
    · cases isName
    · cases isParen
  have less := List.length_pos_iff.mpr some
  rw [passed, List.length_append]
  omega

theorem uses_typeDeclWithin (depth : Nat) (start : Span) (lists : List AttributeList)
    (words : List Modifier) : Uses (typeDeclWithin depth start lists words) := by
  cases depth with
  | zero =>
      intro file cursor later decl run
      have failed : typeDeclWithin 0 start lists words file cursor = _ :=
        failExpecting_apply file cursor "type"
      rw [failed] at run
      cases run
  | succ depth =>
      refine Uses.behind forward_typeKind fun kind => uses_expectIdent.bind fun ⟨name, span⟩ => ?_
      refine forward_typeHead.bind fun parameters => ?_
      have body := forward_typeBody kind start (forward_typeMember _ (forward_typeDeclWithin depth))
      exact body.bind fun members =>
        Forward.behind_look (fun file cursor => spanFrom_apply file cursor _) fun _ =>
          forward_pure _

theorem uses_namespaceDeclWithin (depth : Nat) (start : Span) :
    Uses (namespaceDeclWithin depth start) := by
  cases depth with
  | zero =>
      intro file cursor later decl run
      have failed : namespaceDeclWithin 0 start file cursor = _ :=
        failExpecting_apply file cursor "declaration"
      rw [failed] at run
      cases run
  | succ depth =>
      rw [namespaceDeclWithin_eq]
      exact Uses.behind forward_advance fun _ => uses_dottedName.bind fun parts =>
        forward_spaceRest start _ (forward_namespaceDeclWithin depth)

/-- A using directive ends with a semicolon. -/
theorem uses_usingDirective (start : Span) (isGlobal : Bool) :
    Uses (usingDirective start isGlobal) := by
  have ends (kind : UsingKind) : Uses (pure kind >>= fun kind => expect .semicolon >>= fun _ =>
      spanFrom start >>= fun span => (pure ⟨span, isGlobal, kind⟩ : Parser UsingDirective)) :=
    Uses.behind (forward_pure kind) fun kind => (uses_expect _).bind fun _ =>
      Forward.behind_look (fun file cursor => spanFrom_apply file cursor _) fun _ => forward_pure _
  refine Uses.behind (forward_eatWord _) fun _ =>
    .ite ?_ (.behind (forward_failExpecting _) fun _ => ?_)
  all_goals
    refine Uses.behind (forward_eatWord _) fun _ => .behind (.of_look _ atIdent_apply) fun _ => ?_
    refine Uses.behind (.of_look _ fun file cursor => secondIsMark_apply file cursor _) fun _ => ?_
    refine .ite (.behind forward_type fun _ => ends _) (.ite ?_ ?_)
    · exact Uses.behind forward_expectIdent fun _ => .behind forward_advance fun _ =>
        .behind forward_type fun _ => ends _
    · exact Uses.behind (forward_dottedName.bind fun _ => forward_pure _) fun _ => ends _

/-- Where the end of a statement or a brace does not come at once, skipping a member moves on. -/
theorem isBefore_of_skipBy {action : TokenKind → SkipAction} {later : Cursor} {kind : TokenKind}
    (next : here.peek? 0 = some kind) (goes : action kind ≠ .stop)
    (run : skipBy action file here = .ok () later) : here.IsBefore later := by
  have stepped : here.IsBefore here.advance := isBefore_advance next
  have progress := progresses_skipRound action
  have round := skipRound_apply action file here
  obtain ⟨middle, skip, -, fewer⟩ := skipBalanced_ok file here
  have skipped : here.IsBefore middle := by
    apply fewer
    obtain ⟨token, -, remaining⟩ := Cursor.remaining_eq_cons next
    rw [remaining]
    exact List.cons_ne_nil _ _
  have goesOn {middle : Cursor} (moved : here.IsBefore middle)
      (round : skipRound action () file here = .ok (.yield ()) middle) : here.IsBefore later := by
    have rest : skipBy action file middle = .ok () later :=
      (loop_of_yield file progress round).symm.trans run
    exact moved.of_reaches ((forward_skipBy action).of_ok rest)
  have stops {middle : Cursor} (moved : here.IsBefore middle)
      (round : skipRound action () file here = .ok (.done ()) middle) : here.IsBefore later := by
    have done : skipBy action file here = .ok () middle := loop_of_done file progress round
    cases run.symm.trans done
    exact moved
  simp only [next] at round
  cases does : action kind with
  | stop => exact absurd does goes
  | stepAndStop =>
      simp only [does] at round
      exact stops stepped round
  | step =>
      simp only [does] at round
      exact goesOn stepped round
  | whole =>
      simp only [does, skip] at round
      exact goesOn skipped round
  | block =>
      simp only [does, skip] at round
      split at round
      · exact goesOn skipped round
      · exact stops skipped round

theorem memberAction_ne_stop {kind : TokenKind} (noBrace : kind ≠ .mark .rightBrace) :
    memberAction kind ≠ .stop := by
  cases kind with
  | mark mark => cases mark <;> first | exact absurd rfl noBrace | exact SkipAction.noConfusion
  | _ => exact SkipAction.noConfusion

/-- Nothing is left of a body where its end comes at once. -/
theorem next_of_goesOn {file : SourceFile} {cursor : Cursor}
    (goesOn : atBodyEnd file cursor = .ok false cursor) :
    ∃ kind, cursor.peek? 0 = some kind ∧ kind ≠ .mark .rightBrace := by
  rw [atBodyEnd_apply] at goesOn
  have bothFail :
      (cursor.peek? 0 == some (.mark .rightBrace) || cursor.remaining.isEmpty) = false := by
    injection goesOn
  obtain ⟨noBrace, nonempty⟩ := Bool.or_eq_false_iff.mp bothFail
  cases next : cursor.peek? 0 with
  | none =>
      have empty : cursor.remaining = [] := by simpa [Cursor.peek?] using next
      rw [empty] at nonempty
      cases nonempty
  | some kind =>
      refine ⟨kind, rfl, ?_⟩
      rintro rfl
      rw [next] at noBrace
      cases noBrace

section Steady

variable {kind : TokenKind}

private theorem steady_reaches : Steady (here.Reaches ·) :=
  fun _ _ before behind => before.trans behind

/-- A parser that uses up a token moves on. -/
theorem Uses.moving {parser : Parser α} (uses : Uses parser) :
    Ensures file (here.Reaches ·) parser fun _ => here.IsBefore :=
  fun cursor later value reached run => reached.moved (uses file cursor later value run)

/-- Skipping a member moves on in front of anything but a brace. -/
theorem ensures_skipMember_moving (next : here.peek? 0 = some kind)
    (noBrace : kind ≠ .mark .rightBrace) :
    Ensures file (here.Reaches ·) skipMember fun _ => here.IsBefore := by
  intro cursor later _ reached run
  by_cases moved : here.IsBefore cursor
  · exact moved.of_reaches (forward_skipMember.of_ok run)
  · -- nothing has been passed, so the same token comes next
    have same : cursor.remaining = here.remaining :=
      reached.remaining.eq_of_length_le (Nat.not_lt.mp moved)
    have comes : cursor.peek? 0 = some kind := by rw [Cursor.peek?, same, ← next, Cursor.peek?]
    rw [skipMember_eq] at run
    exact reached.moved (isBefore_of_skipBy comes (memberAction_ne_stop noBrace) run)

theorem ensures_eat_moving (mark : Mark) :
    Ensures file (here.Reaches ·) (eat mark) fun eaten cursor =>
      here.Reaches cursor ∧ (eaten = true → here.IsBefore cursor) := by
  intro cursor later eaten reached run
  rw [eat_apply] at run
  split at run
  · next comes =>
      cases run
      exact ⟨reached.trans cursor.reaches_advance, fun _ => reached.moved (isBefore_advance comes)⟩
  · cases run
    exact ⟨reached, nofun⟩

theorem ensures_method?_moving (start : Span) (lists : List AttributeList) (words : List Modifier)
    (next : here.peek? 0 = some kind) (noBrace : kind ≠ .mark .rightBrace) :
    Ensures file (here.Reaches ·) (method? start lists words) fun _ => here.IsBefore := by
  intro cursor later found reached run
  rw [method?_apply] at run
  cases typed : type file cursor with
  | error diagnostic middle =>
      simp only [typed] at run
      have skips : Ensures file (here.Reaches ·) (do skipMember; return (none : Option MethodDecl))
          fun _ => here.IsBefore :=
        (ensures_skipMember_moving next noBrace).bind fun _ => ensures_pure fun _ => id
      exact skips cursor later found reached run
  | ok returnType middle =>
      simp only [typed] at run
      have moved := reached.moved (uses_type file cursor middle returnType typed)
      cases rest : methodTail file middle with
      | error diagnostic ended => simp [rest] at run
      | ok tail ended =>
          have onward := moved.of_reaches (outlines_methodTail.of_ok rest).reached
          simp only [rest] at run
          cases tail <;>
          · cases run
            exact onward

variable {nested : Span → List AttributeList → List Modifier → Parser TypeDecl}

/-- A member of a type that is read uses up a token, unless a brace comes next. -/
theorem ensures_typeMember_moving (uses : ∀ start lists words, Uses (nested start lists words))
    (next : here.peek? 0 = some kind) (noBrace : kind ≠ .mark .rightBrace) :
    Ensures file (here.Reaches ·) (typeMember nested) fun _ => here.IsBefore := by
  refine .behind_any nextSpan_apply fun start =>
    (ensures_eat_moving .semicolon).bind fun eaten => ?_
  refine .ite (fun isEaten => ensures_pure fun _ moved => moved.2 isEaten) fun _ => ?_
  refine Ensures.imp ?_ (fun _ => And.left) fun _ _ => id
  refine .behind steady_reaches forward_attributeLists fun lists => ?_
  refine .behind steady_reaches forward_modifiers fun words => ?_
  refine .behind_any atTypeKeyword_apply fun _ => .ite (fun _ => ?_) fun _ => ?_
  · exact (uses start lists words).moving.bind fun decl => ensures_pure fun _ => id
  refine .behind_any atSkippedMember_apply fun _ => .ite (fun _ => ?_) fun _ => ?_
  · exact (ensures_skipMember_moving next noBrace).bind fun _ => ensures_pure fun _ => id
  · exact (ensures_method?_moving start lists words next noBrace).bind fun _ =>
      ensures_pure fun _ => id

variable {inner : Span → Parser NamespaceDecl}

/-- An item of a namespace that is read uses up a token, unless a brace comes next. -/
theorem ensures_namespaceItem_moving (uses : ∀ start, Uses (inner start))
    (next : here.peek? 0 = some kind) (noBrace : kind ≠ .mark .rightBrace) :
    Ensures file (here.Reaches ·) (namespaceItem inner) fun _ => here.IsBefore := by
  refine .behind_any nextSpan_apply fun start => ?_
  refine .behind_any (fun file cursor => atWord_apply file cursor _) fun _ => ?_
  refine .behind_any peekSecond_apply fun _ => .ite (fun _ => ?_) fun _ => ?_
  · exact .behind steady_reaches forward_advance fun _ =>
      (uses_usingDirective start true).moving.bind fun _ => ensures_pure fun _ => id
  refine .behind_any (fun _ _ => rfl) fun _ => .ite (fun _ => ?_) fun _ => ?_
  · exact (uses_usingDirective start false).moving.bind fun _ => ensures_pure fun _ => id
  refine (ensures_eat_moving .semicolon).bind fun eaten => ?_
  refine .ite (fun isEaten => ensures_pure fun _ moved => moved.2 isEaten) fun _ => ?_
  refine Ensures.imp ?_ (fun _ => And.left) fun _ _ => id
  refine .behind steady_reaches forward_attributeLists fun lists => ?_
  refine .behind_any (fun file cursor => atWord_apply file cursor _) fun _ =>
    .ite (fun _ => ?_) fun _ => ?_
  · exact (uses start).moving.bind fun _ => ensures_pure fun _ => id
  refine .behind steady_reaches forward_modifiers fun words => ?_
  refine .behind_any atTypeKeyword_apply fun _ => .ite (fun _ => ?_) fun _ => ?_
  · refine .behind_any get_apply fun before => ?_
    exact (uses_typeDeclWithin _ start lists words).moving.bind fun _ => ensures_pure fun _ => id
  · exact (ensures_skipMember_moving next noBrace).bind fun _ => ensures_pure fun _ => id

end Steady

end Moving

section Bodies

/-- The words that begin a type declaration. -/
theorem name_of_beginsType (begins : here.beginsType = true) :
    ∃ word, here.peek? 0 = some (.ident word) := by
  cases named : (here.peek? 0).bind TokenKind.ident? with
  | none => simp [Cursor.beginsType, named] at begins
  | some word => exact ⟨word, Cursor.peek?_eq_ident named⟩

theorem ensures_typeKind (begins : here.beginsType = true) :
    Ensures file (· = here) typeKind fun _ => here.Passed stray := by
  obtain ⟨word, next⟩ := name_of_beginsType begins
  refine .behind_look peekName_apply ((ensures_advance next rfl rfl).onward fun _ => ?_)
  split
  · exact outlines_pure _
  · exact outlines_pure _
  · exact outlines_pure _
  · exact outlines_pure _
  · refine (outlines_eatWord _).bind fun _ => .ite (fun _ => outlines_pure _) fun _ => ?_
    exact (outlines_eatWord _).bind fun _ => outlines_pure _

theorem outlines_typeHead : Outlines true typeHead := by
  have clauses (found : List String) : Outlines true (do
      skipUntil [.leftBrace, .semicolon, .rightBrace]
      return found) :=
    (outlines_skipUntil (by decide) (by decide)).bind fun _ => outlines_pure found
  have rest (found : List String) : Outlines true (do
      if ← atMark .leftParen then skipBalanced
      skipUntil [.leftBrace, .semicolon, .rightBrace]
      return found) := by
    intro file here
    apply ensures_ifMark
    · exact fun opened => (ensures_skipBalanced opened rfl).onward fun _ => clauses found
    · exact clauses found file here
  refine .behind_any (fun file cursor => atMark_apply file cursor _) fun _ =>
    .ite (fun _ => ?_) fun _ => ?_
  · exact outlines_typeParameters.bind rest
  · exact (outlines_pure _).bind rest

/-- A body that is read ends with the brace that belongs to the one that it begins with. -/
theorem ensures_closeDeclaration (start : Span) :
    Ensures file (here.Entered stray .leftBrace) (closeDeclaration start) fun _ =>
      here.Passed stray := by
  intro cursor later _ entered run
  rw [closeDeclaration, eat_bind_apply] at run
  split at run
  · next closes =>
      cases run
      exact entered.leave (by decide) closes
  · cases run

/-- What stands in braces is read up to the brace that belongs to the first one. -/
theorem outlines_braces {parser : Parser α} (outlines : Outlines true parser) (start : Span)
    {next : α → Parser β} (behind : ∀ value, Outlines stray (next value)) :
    Outlines stray (expect .leftBrace >>= fun _ => parser >>= fun value =>
      closeDeclaration start >>= fun _ => next value) := by
  intro file here
  have opens : Ensures file (· = here) (expect .leftBrace) fun _ => here.Entered stray .leftBrace :=
    (ensures_enter .leftBrace).imp (fun _ isHere => isHere ▸ .refl _) fun _ _ => id
  have inside : Ensures file (here.Entered stray .leftBrace) parser fun _ =>
      here.Entered stray .leftBrace :=
    Outlines.inside outlines
  exact opens.bind fun _ => inside.bind fun value =>
    (ensures_closeDeclaration start).bind fun _ => (behind value).ensures

theorem outlines_typeBody (kind : TypeKind) (start : Span) {member : Parser (Option TypeMember)}
    (forward : Forward member) (outlines : Outlines true member)
    (moves : ∀ (file : SourceFile) (here : Cursor) (kind : TokenKind),
      here.peek? 0 = some kind → kind ≠ .mark .rightBrace →
        Ensures file (here.Reaches ·) member fun _ => here.IsBefore) :
    Outlines true (typeBody kind start member) := by
  have ends (members : List TypeMember) :
      Outlines true (eat .semicolon >>= fun _ => (pure members : Parser (List TypeMember))) :=
    (outlines_eat rfl rfl).bind fun _ => outlines_pure members
  refine (outlines_eat rfl rfl).bind fun _ => .ite (fun _ => outlines_pure _) fun _ =>
    .ite (fun _ => ?_) fun _ => ?_
  · intro file here
    apply ensures_ifMark
    · exact fun opened => (ensures_skipBalanced opened rfl).onward fun _ => ends []
    · rintro cursor later members - run
      simp [bind_apply, failExpecting_apply] at run
  · refine outlines_braces ?_ start ends
    refine outlines_memberLoop stopsAtEnd_atBodyEnd forward outlines ?_ []
    intro file cursor later found goesOn run _
    obtain ⟨kind, next, noBrace⟩ := next_of_goesOn goesOn
    exact moves file cursor kind next noBrace cursor later found (.refl cursor) run

/-- A reader of type declarations passes them, where one begins. -/
def OutlinesTypes (nested : Span → List AttributeList → List Modifier → Parser TypeDecl) : Prop :=
  ∀ (file : SourceFile) (here : Cursor) (start : Span) (lists : List AttributeList)
    (words : List Modifier), here.beginsType = true →
      Ensures file (· = here) (nested start lists words) fun _ => here.Passed true

theorem outlines_typeMember {nested : Span → List AttributeList → List Modifier → Parser TypeDecl}
    (types : OutlinesTypes nested) : Outlines true (typeMember nested) := by
  refine .behind_any nextSpan_apply fun start => (outlines_eat rfl rfl).bind fun _ => ?_
  refine .ite (fun _ => outlines_pure _) fun _ => outlines_attributeLists.bind fun lists => ?_
  refine outlines_modifiers.bind fun words file here => ?_
  refine .behind_look atTypeKeyword_apply (.ite (fun begins => ?_) fun _ => ?_)
  · exact (types file here start lists words begins).onward fun _ => outlines_pure _
  have rest : Outlines true (do
      if ← atSkippedMember then
        skipMember
        return none
      return (← method? start lists words).map TypeMember.method) := by
    refine .behind_any atSkippedMember_apply fun _ => .ite (fun _ => ?_) fun _ => ?_
    · exact outlines_skipMember.bind fun _ => outlines_pure _
    · exact (outlines_method? start lists words).bind fun _ => outlines_pure _
  exact rest file here

theorem outlinesTypes_typeDeclWithin (depth : Nat) : OutlinesTypes (typeDeclWithin depth) := by
  induction depth with
  | zero => exact fun _ _ _ _ _ _ => ensures_failExpecting _
  | succ depth ih =>
      intro file here start lists words begins
      refine (ensures_typeKind begins).onward fun kind => ?_
      refine outlines_expectIdent.bind fun ⟨name, nameSpan⟩ =>
        outlines_typeHead.bind fun parameters => ?_
      refine (outlines_typeBody kind start (forward_typeMember _ (forward_typeDeclWithin depth))
        (outlines_typeMember ih) fun file here kind next noBrace =>
          ensures_typeMember_moving (uses_typeDeclWithin depth) next noBrace).bind fun members => ?_
      exact outlines_spanned start _

end Bodies

section Namespaces

variable {inner : Span → Parser NamespaceDecl}

theorem outlines_usingDirective (start : Span) (isGlobal : Bool) :
    Outlines stray (usingDirective start isGlobal) := by
  have ends (kind : UsingKind) : Outlines stray (pure kind >>= fun kind =>
      expect .semicolon >>= fun _ => spanFrom start >>= fun span =>
        (pure ⟨span, isGlobal, kind⟩ : Parser UsingDirective)) :=
    (outlines_pure kind).bind fun kind => (outlines_expect rfl rfl).bind fun _ =>
      outlines_spanned start _
  refine (outlines_eatWord _).bind fun _ => .ite (fun _ => ?_) fun _ =>
    (outlines_failExpecting _).bind fun _ => ?_
  all_goals
    refine (outlines_eatWord _).bind fun _ file here => ?_
    refine .behind_look atIdent_apply ?_
    refine .behind_look (fun file cursor => secondIsMark_apply file cursor _) ?_
    refine .ite (fun _ => ?_) fun _ => .ite (fun isAlias => ?_) fun _ => ?_
    · exact (outlines_type file here).onward fun _ => ends _
    · have second := eq_of_beq (Bool.and_eq_true_iff.mp isAlias).2
      have named : Ensures file (· = here) expectIdent fun _ cursor =>
          here.Passed stray cursor ∧ cursor.peek? 0 = some (.mark .equals) :=
        ensures_nameBefore second
      refine named.bind fun ⟨name, _⟩ => (ensures_advanceBehind rfl rfl).bind fun _ => ?_
      exact (outlines_type.bind fun _ => ends _).ensures
    · exact ((outlines_dottedName.bind fun _ => outlines_pure _) file here).onward fun _ => ends _

/-- A reader of namespaces passes them, where one begins. -/
def OutlinesSpaces (inner : Span → Parser NamespaceDecl) : Prop :=
  ∀ (file : SourceFile) (here : Cursor) (start : Span), here.peek? 0 = some (.ident "namespace") →
    Ensures file (· = here) (inner start) fun _ => here.Passed true

theorem outlines_namespaceItem (spaces : OutlinesSpaces inner) :
    Outlines true (namespaceItem inner) := by
  have directive (start : Span) (isGlobal : Bool) : Outlines true
      (usingDirective start isGlobal >>= fun directive =>
        (pure (some (.directive directive)) : Parser (Option NamespaceItem))) :=
    (outlines_usingDirective start isGlobal).bind fun _ => outlines_pure _
  refine .behind_any nextSpan_apply fun start file here => ?_
  refine .behind_look (fun file cursor => atWord_apply file cursor _)
    (.behind_look peekSecond_apply ?_)
  refine .ite (fun isGlobal => ?_) fun _ => ?_
  · have isWord := eq_of_beq (Bool.and_eq_true_iff.mp isGlobal).1
    exact (ensures_advance (Cursor.peek?_eq_ident isWord) rfl rfl).onward fun _ =>
      directive start true
  refine .behind_look (fun _ _ => rfl) (.ite (fun _ => directive start false file here) fun _ => ?_)
  refine (outlines_eat rfl rfl file here).onward fun _ => ?_
  refine .ite (fun _ => outlines_pure _) fun _ =>
    outlines_attributeLists.bind fun lists file here => ?_
  refine .behind_look (fun file cursor => atWord_apply file cursor _)
    (.ite (fun isSpace => ?_) fun _ => ?_)
  · have isWord := Cursor.peek?_eq_ident (eq_of_beq isSpace)
    exact (spaces file here start isWord).onward fun _ => outlines_pure _
  refine (outlines_modifiers file here).onward fun words file here => ?_
  refine .behind_look atTypeKeyword_apply
    (.ite (fun begins => .behind_look get_apply ?_) fun _ => ?_)
  · exact (outlinesTypes_typeDeclWithin _ file here start lists words begins).onward fun _ =>
      outlines_pure _
  · exact (outlines_skipMember file here).onward fun _ => outlines_pure _

/-- A stray brace that comes next has been recorded. -/
theorem skipStrayBrace_apply (file : SourceFile) (cursor : Cursor) :
    (∃ later, skipStrayBrace file cursor = .ok true later ∧ later.recorded ≠ cursor.recorded) ∨
      cursor.peek? 0 ≠ some (.mark .rightBrace) ∧
        skipStrayBrace file cursor = .ok false cursor := by
  by_cases stray : cursor.peek? 0 = some (.mark .rightBrace)
  · let reported : Cursor :=
      ⟨cursor.previous, cursor.remaining,
        cursor.recorded ++ [cursor.unexpected file "declaration"]⟩
    refine .inl ⟨reported.advance, ?_, ?_⟩
    · simp only [skipStrayBrace, bind_apply, atMark_apply, stray, beq_self_eq_true, if_true,
        unexpected_apply, record_apply, advance_apply, pure_apply]
      rfl
    · obtain ⟨previous, remaining, recorded⟩ := cursor
      cases remaining <;> simp [reported, Cursor.advance]
  · refine .inr ⟨stray, ?_⟩
    have noBrace : (cursor.peek? 0 == some (.mark .rightBrace)) = false := beq_false_of_ne stray
    simp only [skipStrayBrace, bind_apply, atMark_apply, noBrace, Bool.false_eq_true, if_false,
      pure_apply]

/-- An item outside of braces is read where no stray brace comes next, unless something is
recorded. -/
theorem read_of_openItem {cursor later : Cursor} {found : Option NamespaceItem}
    (run : openItem inner file cursor = .ok found later)
    (silent : later.recorded = cursor.recorded) :
    cursor.peek? 0 ≠ some (.mark .rightBrace) ∧
    namespaceItem inner file cursor = .ok found later := by
  rw [openItem, bind_apply] at run
  obtain ⟨middle, brace, recorded⟩ | ⟨noBrace, none⟩ := skipStrayBrace_apply file cursor
  · simp only [brace, if_true, pure_apply] at run
    cases run
    exact absurd silent recorded
  · simp only [none, Bool.false_eq_true, if_false] at run
    exact ⟨noBrace, run⟩

theorem outlines_openItem (forward : ∀ start, Forward (inner start))
    (spaces : OutlinesSpaces inner) :
    Outlines true (openItem inner) := by
  apply Outlines.of_forall
  intro file here later found run
  by_cases silent : later.recorded = here.recorded
  · exact (outlines_namespaceItem spaces).of_ok (read_of_openItem run silent).2
  · exact .of_recorded ((forward_openItem forward).of_ok run) silent

theorem outlines_namespaceBody (isBraced : Bool) (forward : ∀ start, Forward (inner start))
    (uses : ∀ start, Uses (inner start)) (spaces : OutlinesSpaces inner) :
    Outlines true (namespaceBody isBraced inner) := by
  refine .ite (fun _ => ?_) fun _ => ?_
  · refine outlines_memberLoop stopsAtEnd_atBodyEnd (forward_namespaceItem forward)
      (outlines_namespaceItem spaces) ?_ _
    intro file cursor later found goesOn run _
    obtain ⟨kind, next, noBrace⟩ := next_of_goesOn goesOn
    exact ensures_namespaceItem_moving uses next noBrace cursor later found (.refl cursor) run
  · refine outlines_memberLoop stopsAtEnd_atEnd (forward_openItem forward)
      (outlines_openItem forward spaces) ?_ _
    intro file cursor later found goesOn run silent
    obtain ⟨noBrace, read⟩ := read_of_openItem run silent
    cases next : cursor.peek? 0 with
    | none =>
        have empty : cursor.remaining = [] := by simpa [Cursor.peek?] using next
        rw [atEnd_apply, empty] at goesOn
        cases goesOn
    | some kind =>
        have differs : kind ≠ .mark .rightBrace := fun isBrace => noBrace (isBrace ▸ next)
        exact ensures_namespaceItem_moving uses next differs cursor later found (.refl cursor) read

theorem outlinesSpaces_namespaceDeclWithin (depth : Nat) :
    OutlinesSpaces (namespaceDeclWithin depth) := by
  induction depth with
  | zero => exact fun _ _ _ _ => ensures_failExpecting _
  | succ depth ih =>
      intro file here start isSpace
      rw [namespaceDeclWithin_eq]
      have items (isBraced : Bool) :
          Outlines true (namespaceBody isBraced (namespaceDeclWithin depth)) :=
        outlines_namespaceBody isBraced (forward_namespaceDeclWithin depth)
          (uses_namespaceDeclWithin depth) ih
      refine (ensures_advance isSpace rfl rfl).onward fun _ =>
        outlines_dottedName.bind fun parts => ?_
      refine (outlines_eat rfl rfl).bind fun _ => .ite (fun _ => ?_) fun _ => ?_
      · exact (items false).bind fun body => outlines_spanned start _
      · apply outlines_braces (items true) start
        exact fun body => (outlines_eat rfl rfl).bind fun _ => outlines_spanned start _

end Namespaces

end Parser

/-- What is known of the delimiters of a text that has an outline.  If all of them are braces they
are properly nested.  If there are no type arguments, no more of them are opened than are
closed. -/
theorem SourceUnit.outlined_of_parse {text path : String} {unit : SourceUnit}
    (parsed : SourceUnit.parse text path = .ok unit) :
    let kinds := (Token.tokens (.ofText path text)).map (·.kind)
    Outlined true kinds ∧ (OnlyBraces kinds → Nested kinds) ∧
      (.mark .less ∉ kinds → kinds.countP TokenKind.opens ≤ kinds.countP TokenKind.closes) := by
  intro kinds
  obtain ⟨-, body, later, run, silent, -⟩ := SourceFile.fileBody_of_outlineOf parsed
  rw [Parser.fileBody_apply] at run
  have ended := Parser.remaining_of_namespaceBody (Parser.forward_namespaceDeclWithin _) run
  have passed := (Parser.outlines_namespaceBody false (Parser.forward_namespaceDeclWithin _)
    (Parser.uses_namespaceDeclWithin _) (Parser.outlinesSpaces_namespaceDeclWithin _)).of_ok run
  obtain ⟨tokens, isSplit, outlined⟩ := passed.outlined silent
  rw [ended, List.append_nil] at isSplit
  have whole : Outlined true kinds := by
    rw [← isSplit] at outlined
    exact outlined
  exact ⟨whole, whole.nested, whole.countP_le⟩

/-- A text in which a parenthesis is closed by a brace, and a brace by a parenthesis. -/
private def crossedText : String :=
  "class A \x7b void M() \x7b f(; \x7d void N() \x7b g); \x7d \x7d"

/-- A text with braces and no other delimiters. -/
private def bracesText : String :=
  "class A \x7b int x; class B \x7b \x7d enum C \x7b X, Y \x7d \x7d"

/-- Both have an outline.  Of the first one, only the method `M` is seen, with a body that holds
the other method. -/
theorem SourceUnit.outlined_of_parse_of_crossed :
    let crossed := (Token.tokens (.ofText "A.cs" crossedText)).map (·.kind)
    let braces := (Token.tokens (.ofText "A.cs" bracesText)).map (·.kind)
    (∃ unit, SourceUnit.parse crossedText "A.cs" = .ok unit ∧ unit.methods.map (·.name) = ["M"]) ∧
      Outlined true crossed ∧ .mark .less ∉ crossed ∧
      crossed.countP TokenKind.opens ≤ crossed.countP TokenKind.closes ∧
      OnlyBraces braces ∧ Nested braces := by
  intro crossed braces
  have seen : (SourceUnit.parse crossedText "A.cs").toOption.map
      (fun unit => unit.methods.map (·.name)) = some ["M"] := by decide +kernel
  have seenBraces : (SourceUnit.parse bracesText "A.cs").toOption.map
      (fun unit => unit.methods.length) = some 0 := by decide +kernel
  obtain ⟨unit, isUnit, -, names⟩ := SourceUnit.exists_of_parse seen
  obtain ⟨other, isOther, -⟩ := SourceUnit.exists_of_parse seenBraces
  have noArguments : .mark .less ∉ crossed := by decide +kernel
  have onlyBraces : OnlyBraces braces := by
    unfold OnlyBraces
    decide +kernel
  obtain ⟨outlined, -, counts⟩ := outlined_of_parse isUnit
  obtain ⟨-, nested, -⟩ := outlined_of_parse isOther
  exact ⟨⟨unit, isUnit, names⟩, outlined, noArguments, counts noArguments, onlyBraces,
    nested onlyBraces⟩

end ErrorAccessors
