/-
# Reading the members of a type

What is read of one member, from its attributes to where its type begins, and
what the loop over the members makes of it.  The words in front of a type are
modifiers as long as no parenthesis follows; a word in front of a parenthesis
is left where it is, and the member that begins with it is one that is skipped.

Reading members never goes back, so that the loop over them always comes to an
end of its own.
-/

import ErrorAccessors.Proofs.MethodReading

namespace ErrorAccessors

namespace Cursor

/-- Whether a type declaration comes next. -/
def beginsType (cursor : Cursor) : Bool :=
  match (cursor.peek? 0).bind TokenKind.ident? with
  | some "class" | some "struct" | some "interface" | some "enum" => true
  | some "record" => (cursor.peek? 1).any TokenKind.isIdent
  | _ => false

/-- Whether a member comes next that is skipped from its first words. -/
def beginsSkipped (cursor : Cursor) : Bool :=
  (((cursor.peek? 0).bind TokenKind.ident?).isSome && cursor.peek? 1 == some (.mark .leftParen)) ||
    cursor.peek? 0 == some (.mark .tilde) ||
    ((cursor.peek? 0).bind TokenKind.ident?).any
      fun word => ["delegate", "event", "operator", "implicit", "explicit"].contains word

/-- No further modifier comes next. -/
def EndsWords (cursor : Cursor) : Prop :=
  ∀ word, (cursor.peek? 0).bind TokenKind.ident? = some word → word ∈ Parser.modifierWords →
    cursor.peek? 1 = some (.mark .leftParen)

end Cursor

/-- Whether a token is a word that may modify a declaration. -/
def Token.IsModifier (token : Token) : Prop :=
  ∃ word ∈ Parser.modifierWords, token.kind = .ident word

namespace Parser

section Modifiers

/-- One round of reading modifiers. -/
def modifierRound (found : List Modifier) : Parser (ForInStep (List Modifier)) := do
  match ← peekName with
  | none => return .done found
  | some word =>
    if !modifierWords.contains word || (← secondIsMark .leftParen) then return .done found
    else
      let span ← nextSpan
      advance
      return .yield (found ++ [⟨word, span⟩])

private theorem modifierRound_apply (found : List Modifier) (file : SourceFile)
    (cursor : Cursor) :
    modifierRound found file cursor =
      match (cursor.peek? 0).bind TokenKind.ident? with
      | none => .ok (.done found) cursor
      | some word =>
        if word ∉ modifierWords ∨ cursor.peek? 1 = some (.mark .leftParen) then
          .ok (.done found) cursor
        else .ok (.yield (found ++ [⟨word, cursor.nextSpan file⟩])) cursor.advance := by
  simp only [modifierRound, bind_apply, peekName_apply]
  cases (cursor.peek? 0).bind TokenKind.ident? with
  | none => rfl
  | some word =>
      simp only [bind_apply, secondIsMark_apply, Bool.or_eq_true, Bool.not_eq_true', beq_iff_eq,
        List.contains_eq_mem, decide_eq_false_iff_not, ite_run, pure_apply, nextSpan_apply,
        advance_apply]

theorem forward_modifierRound (found : List Modifier) : Forward (modifierRound found) := by
  refine Forward.behind_look peekName_apply fun named => ?_
  cases named with
  | none => exact forward_pure _
  | some word =>
      refine Forward.behind_look (fun file cursor => secondIsMark_apply file cursor _) fun _ => ?_
      refine .ite (forward_pure _) (Forward.behind_look nextSpan_apply fun _ => ?_)
      exact forward_advance.bind fun _ => forward_pure _

theorem progresses_modifierRound : Progresses modifierRound := by
  intro file found next cursor later round
  rw [modifierRound_apply] at round
  cases named : (cursor.peek? 0).bind TokenKind.ident? with
  | none => simp [named] at round
  | some word =>
      simp only [named] at round
      split at round
      · cases round
      · cases round
        have := Cursor.length_advance (Cursor.peek?_eq_ident named)
        omega

theorem forward_modifiers : Forward modifiers :=
  forward_loop forward_modifierRound []

/-- Words are read as modifiers in front of anything that is no parenthesis and
no further modifier. -/
private theorem loop_modifierRound_of_words (file : SourceFile) {words rest : List Token}
    (areWords : ∀ token ∈ words, token.IsModifier) (previous : Option Token)
    (recorded : List Diagnostic) (found : List Modifier)
    (ends : (Cursor.mk (Token.lastOf previous words) rest recorded).EndsWords)
    (behind : words ≠ [] → (rest.head?.map (·.kind)) ≠ some (.mark .leftParen)) :
    ∃ read, read.map (fun modifier => TokenKind.ident modifier.keyword) = words.map (·.kind) ∧
      loop found modifierRound file ⟨previous, words ++ rest, recorded⟩ =
        .ok (found ++ read) ⟨Token.lastOf previous words, rest, recorded⟩ := by
  induction words generalizing previous found with
  | nil =>
      rw [Token.lastOf_nil] at ends ⊢
      rw [List.nil_append]
      refine ⟨[], rfl, ?_⟩
      rw [List.append_nil]
      refine loop_of_done file progresses_modifierRound ?_
      rw [modifierRound_apply]
      cases named : ((Cursor.mk previous rest recorded).peek? 0).bind TokenKind.ident? with
      | none => rfl
      | some word =>
          have stops : word ∉ modifierWords ∨
              (Cursor.mk previous rest recorded).peek? 1 = some (.mark .leftParen) := by
            by_cases modifies : word ∈ modifierWords
            · exact .inr (ends word named modifies)
            · exact .inl modifies
          exact if_pos stops
  | cons token words ih =>
      obtain ⟨word, known, kind⟩ := areWords token List.mem_cons_self
      have next : (Cursor.mk previous (token :: words ++ rest) recorded).peek? 1 ≠
          some (.mark .leftParen) := by
        rw [List.cons_append, Cursor.peek?_one_cons]
        cases words with
        | nil => exact behind (List.cons_ne_nil _ _)
        | cons second words =>
            obtain ⟨other, -, kindIs⟩ := areWords second (by simp)
            simp [kindIs]
      have round : modifierRound found file ⟨previous, token :: words ++ rest, recorded⟩ =
          .ok (.yield (found ++ [⟨word, token.span⟩])) ⟨some token, words ++ rest, recorded⟩ := by
        rw [modifierRound_apply]
        have notStopped : ¬(word ∉ modifierWords ∨
            (Cursor.mk previous (token :: words ++ rest) recorded).peek? 1 =
              some (.mark .leftParen)) :=
          fun stops => stops.elim (fun unknown => unknown known) next
        simp only [List.cons_append, Cursor.peek?_zero_cons, kind, Option.bind_some,
          TokenKind.ident?] at notStopped ⊢
        exact if_neg notStopped
      obtain ⟨read, kinds, run⟩ := ih (fun token member => areWords token (by simp [member]))
        (some token) (found ++ [⟨word, token.span⟩]) ends fun nonempty => behind (by simp)
      refine ⟨⟨word, token.span⟩ :: read, by simp [kinds, kind], ?_⟩
      rw [loop_of_yield file progresses_modifierRound round, run]
      simp

theorem modifiers_of_words (file : SourceFile) {words rest : List Token}
    (areWords : ∀ token ∈ words, token.IsModifier) (previous : Option Token)
    (recorded : List Diagnostic)
    (ends : (Cursor.mk (Token.lastOf previous words) rest recorded).EndsWords)
    (behind : words ≠ [] → (rest.head?.map (·.kind)) ≠ some (.mark .leftParen)) :
    ∃ read, read.map (fun modifier => TokenKind.ident modifier.keyword) = words.map (·.kind) ∧
      modifiers file ⟨previous, words ++ rest, recorded⟩ =
        .ok read ⟨Token.lastOf previous words, rest, recorded⟩ :=
  loop_modifierRound_of_words file areWords previous recorded [] ends behind

/-- Words that have been read as modifiers are modifiers, and no further one comes
behind them. -/
theorem words_of_modifiers {file : SourceFile} {cursor later : Cursor} {words : List Modifier}
    (run : modifiers file cursor = .ok words later) :
    ∃ tokens, cursor.remaining = tokens ++ later.remaining ∧ (∀ token ∈ tokens, token.IsModifier) ∧
      tokens.map (·.kind) = words.map (fun modifier => TokenKind.ident modifier.keyword) ∧
      later.EndsWords := by
  let keeps (found : List Modifier) (reached : Cursor) : Prop :=
    ∃ tokens, cursor.remaining = tokens ++ reached.remaining ∧
      (∀ token ∈ tokens, token.IsModifier) ∧
      tokens.map (·.kind) = found.map (fun modifier => TokenKind.ident modifier.keyword)
  let ends (found : List Modifier) (reached : Cursor) : Prop :=
    keeps found reached ∧ reached.EndsWords
  suffices holds : ends words later by
    obtain ⟨⟨tokens, passed, areWords, kinds⟩, ended⟩ := holds
    exact ⟨tokens, passed, areWords, kinds, ended⟩
  refine @loop_induction _ _ file progresses_modifierRound keeps ends ?_ _ _ _ _
    ⟨[], rfl, List.forall_mem_nil _, rfl⟩ run
  intro found here behind outcome kept round
  obtain ⟨tokens, passed, areWords, kinds⟩ := kept
  change modifierRound found file here = .ok outcome behind at round
  rw [modifierRound_apply] at round
  cases named : (here.peek? 0).bind TokenKind.ident? with
  | none =>
      simp only [named] at round
      cases round
      refine ⟨⟨tokens, passed, areWords, kinds⟩, fun word isWord => ?_⟩
      rw [named] at isWord
      cases isWord
  | some word =>
      simp only [named] at round
      split at round
      · next stops =>
        cases round
        refine ⟨⟨tokens, passed, areWords, kinds⟩, fun other isWord modifies => ?_⟩
        obtain rfl : word = other := Option.some.inj (named.symm.trans isWord)
        exact stops.resolve_left fun unknown => unknown modifies
      · next goesOn =>
        cases round
        obtain ⟨token, kind, remaining⟩ :=
          Cursor.remaining_eq_cons (Cursor.peek?_eq_ident named)
        refine ⟨tokens ++ [token], ?_, ?_, ?_⟩
        · rw [passed, remaining, List.append_assoc]
          rfl
        · refine List.forall_mem_append.mpr ⟨areWords, List.forall_mem_singleton.mpr ?_⟩
          exact ⟨word, by simpa using (not_or.mp goesOn).1, kind⟩
        · rw [List.map_append, List.map_append, kinds, List.map_singleton, List.map_singleton,
            kind]

/-- The modifier that comes next, if one does. -/
private def nextModifier? : Parser (Option String) := fun _ cursor =>
  .ok (((cursor.peek? 0).bind TokenKind.ident?).filter fun word =>
    modifierWords.contains word && cursor.peek? 1 != some (.mark .leftParen)) cursor

private theorem modifierRound_eq (found : List Modifier) :
    modifierRound found = (do
      let word? ← nextModifier?
      match word? with
      | none => return .done found
      | some word =>
        let span ← nextSpan
        advance
        return .yield (found ++ [⟨word, span⟩])) := by
  funext file cursor
  rw [modifierRound_apply, bind_apply]
  simp only [nextModifier?]
  cases (cursor.peek? 0).bind TokenKind.ident? with
  | none => rfl
  | some word =>
      have isNext : (modifierWords.contains word &&
          cursor.peek? 1 != some (.mark .leftParen)) =
          !decide (word ∉ modifierWords ∨ cursor.peek? 1 = some (.mark .leftParen)) := by
        simp [bne, Bool.decide_or, Bool.beq_eq_decide_eq]
      simp only [Option.filter, isNext]
      by_cases stops : word ∉ modifierWords ∨ cursor.peek? 1 = some (.mark .leftParen)
      · simp only [stops, if_true, decide_true, Bool.not_true, Bool.false_eq_true, if_false,
          pure_apply]
      · simp only [stops, if_false, decide_false, Bool.not_false, if_true, bind_apply,
          nextSpan_apply, advance_apply, pure_apply]

private theorem repeats_nextModifier? : Repeats nextModifier? nextModifier? id := by
  refine repeats_of_look fun file other here there same => ⟨_, _, rfl, rfl, ?_⟩
  simp only [id, same.first]
  cases named : (here.peek? 0).bind TokenKind.ident? with
  | none => rfl
  | some word =>
      obtain ⟨kind, next, further⟩ := further_of_ident (Option.isSome_of_eq_some named)
      simp only [same.second kind next further]

/-- Modifiers are read in the same way in front of the same. -/
theorem repeats_modifiers : Repeats modifiers modifiers (List.map (·.keyword)) := by
  refine repeats_loop progresses_modifierRound (fun found found' same => ?_) rfl
  show RepeatsBefore _ (modifierRound found) (modifierRound found') _
  rw [modifierRound_eq, modifierRound_eq]
  refine repeats_nextModifier?.bind fun word? again agrees => ?_
  obtain rfl : again = word? := agrees
  cases again with
  | none => exact repeats_pure (congrArg ForInStep.done same)
  | some word =>
      refine settles_nextSpan.repeats.bind fun span span' _ => repeats_advance.bind fun _ _ _ => ?_
      refine repeats_pure (congrArg ForInStep.yield ?_)
      rw [List.map_append, List.map_append, same]
      rfl

end Modifiers

section Members

variable (nested : Span → List AttributeList → List Modifier → Parser TypeDecl)
  (file : SourceFile) (cursor : Cursor)

theorem atTypeKeyword_apply : atTypeKeyword file cursor = .ok cursor.beginsType cursor := by
  simp only [atTypeKeyword, bind_apply, peekName_apply, Cursor.beginsType]
  split <;> simp_all

theorem atSkippedMember_apply : atSkippedMember file cursor = .ok cursor.beginsSkipped cursor := by
  simp only [atSkippedMember, bind_apply, atIdent_apply, secondIsMark_apply, atMark_apply,
    peekName_apply, Cursor.beginsSkipped, ite_run, pure_apply]
  cases ((cursor.peek? 0).bind TokenKind.ident?).isSome &&
      cursor.peek? 1 == some (.mark .leftParen) with
  | true => rfl
  | false =>
      cases cursor.peek? 0 == some (.mark .tilde) with
      | true => rfl
      | false => cases (cursor.peek? 0).bind TokenKind.ident? <;> rfl

/-- A member of a type is a method if neither a type nor a skipped member
begins behind its modifiers. -/
theorem typeMember_apply :
    typeMember nested file cursor =
      if cursor.peek? 0 = some (.mark .semicolon) then .ok none cursor.advance
      else
        match attributeLists file cursor with
        | .error diagnostic later => .error diagnostic later
        | .ok lists behindLists =>
          match modifiers file behindLists with
          | .error diagnostic later => .error diagnostic later
          | .ok words behindWords =>
            if behindWords.beginsType = true then
              match nested (cursor.nextSpan file) lists words file behindWords with
              | .error diagnostic later => .error diagnostic later
              | .ok decl later => .ok (some (.type decl)) later
            else if behindWords.beginsSkipped = true then
              (do skipMember; return none : Parser (Option TypeMember)) file behindWords
            else
              match method? (cursor.nextSpan file) lists words file behindWords with
              | .error diagnostic later => .error diagnostic later
              | .ok method later => .ok (method.map .method) later := by
  simp only [typeMember, bind_apply, nextSpan_apply, eat_apply]
  by_cases empty : cursor.peek? 0 = some (.mark .semicolon)
  · simp only [if_pos empty]
    rfl
  · simp only [if_neg empty, Bool.false_eq_true, if_false, bind_apply]
    cases attributeLists file cursor with
    | error diagnostic later => rfl
    | ok lists behindLists =>
        simp only []
        cases modifiers file behindLists with
        | error diagnostic later => rfl
        | ok words behindWords =>
            simp only [atTypeKeyword_apply, atSkippedMember_apply, ite_run, bind_apply]
            cases nested (cursor.nextSpan file) lists words file behindWords <;>
              cases method? (cursor.nextSpan file) lists words file behindWords <;> rfl

section Forward

theorem forward_skipMember : Forward skipMember := by
  rw [skipMember_eq]
  exact forward_skipBy memberAction

theorem forward_attributeLists : Forward attributeLists := by
  have lists : Repeats attributeLists attributeLists (List.map AttributeList.unplaced) :=
    repeats_attributeLists
  exact lists.forward

theorem forward_method? (start : Span) (lists : List AttributeList) (words : List Modifier) :
    Forward (method? start lists words) := by
  have tail : Repeats methodTail methodTail (Option.map MethodTail.unplaced) := repeats_methodTail
  intro file cursor
  rw [method?_apply]
  cases run : type file cursor with
  | error diagnostic later =>
      exact (forward_skipMember.bind fun _ => forward_pure none) file cursor
  | ok returnType reached =>
      have before := forward_type.of_ok run
      simp only []
      cases rest : methodTail file reached with
      | error diagnostic later =>
          obtain ⟨reachedEnd, isError⟩ := tail.forward.of_error rest
          exact ⟨before.trans reachedEnd, isError⟩
      | ok found later =>
          have reachedEnd := before.trans (tail.forward.of_ok rest)
          cases found with
          | none => exact reachedEnd
          | some found => exact reachedEnd

theorem forward_typeMember
    (nestedForward : ∀ start lists words, Forward (nested start lists words)) :
    Forward (typeMember nested) := by
  refine Forward.behind_look nextSpan_apply fun start =>
    (forward_eat .semicolon).bind fun empty => ?_
  refine .ite (forward_pure none) ?_
  refine forward_attributeLists.bind fun lists => forward_modifiers.bind fun words => ?_
  refine Forward.behind_look atTypeKeyword_apply fun _ => ?_
  refine .ite ((nestedForward start lists words).bind fun _ => forward_pure _) ?_
  refine Forward.behind_look atSkippedMember_apply fun _ => ?_
  refine .ite (forward_skipMember.bind fun _ => forward_pure none) ?_
  exact (forward_method? start lists words).bind fun _ => forward_pure _

theorem forward_record {diagnostic : Diagnostic} (isError : diagnostic.isError = true) :
    Forward (record diagnostic) := by
  intro file cursor
  refine ⟨⟨[], rfl, rfl⟩, [diagnostic], rfl, fun other member => ?_⟩
  rw [List.mem_singleton.mp member]
  exact isError

theorem forward_skipFault : Forward skipFault := by
  refine Forward.behind_look peek_apply fun next => ?_
  split
  · intro file cursor
    rw [bind_apply, unexpected_apply]
    have reported := forward_record (cursor.isError_unexpected file "declaration")
    exact (reported.bind fun _ => forward_advance.bind fun _ => forward_pure true) file cursor
  · exact forward_pure false

theorem forward_recoverFrom (before : Nat) : Forward (recoverFrom before) := by
  refine Forward.behind_look get_apply fun _ => ?_
  exact .ite (forward_advance.bind fun _ => forward_skipMember) forward_skipMember

theorem forward_orElse {α : Type} {parser : Parser α} {recover : Diagnostic → Parser α}
    (forward : Forward parser)
    (recovering : ∀ diagnostic, diagnostic.isError = true → Forward (recover diagnostic)) :
    Forward (orElse parser recover) := by
  intro file cursor
  rw [orElse]
  cases run : parser file cursor with
  | ok value later => exact forward.of_ok run
  | error diagnostic later =>
      obtain ⟨before, isError⟩ := forward.of_error run
      have behind := recovering diagnostic isError file later
      simp only []
      cases rest : recover diagnostic file later with
      | ok value final =>
          rw [rest] at behind
          exact before.trans behind
      | error other final =>
          rw [rest] at behind
          exact ⟨before.trans behind.1, behind.2⟩

end Forward

end Members

section MemberLoops

variable {σ α : Type} {atStop : Parser Bool} {member : Parser (Option α)} {add : σ → α → σ}

/-- What one round of going through members adds. -/
def addIfAny (add : σ → α → σ) (state : σ) : Option α → σ
  | some found => add state found
  | none => state

/-- One round of going through members. -/
def memberRound (atStop : Parser Bool) (member : Parser (Option α)) (add : σ → α → σ)
    (state : σ) : Parser (ForInStep σ) := do
  if ← atStop then return .done state
  else if ← skipFault then return .yield state
  else
    let before := (← get).remaining.length
    let read ← orElse member fun diagnostic => do
      record diagnostic
      recoverFrom before
      return none
    if (← get).remaining.length = before then advance
    match read with
    | some found => return .yield (add state found)
    | none => return .yield state

/-- A parser that tells whether a loop over members stops here, which it does at
the end of the file at the latest. -/
def StopsAtEnd (atStop : Parser Bool) : Prop :=
  ∀ (file : SourceFile) (cursor : Cursor), ∃ stop,
    atStop file cursor = .ok stop cursor ∧ (cursor.remaining = [] → stop = true)

theorem atBodyEnd_apply (file : SourceFile) (cursor : Cursor) :
    atBodyEnd file cursor =
      .ok (cursor.peek? 0 == some (.mark .rightBrace) || cursor.remaining.isEmpty) cursor := rfl

theorem stopsAtEnd_atBodyEnd : StopsAtEnd atBodyEnd := by
  refine fun file cursor => ⟨_, rfl, fun ended => ?_⟩
  simp [ended]

/-- Reading a member, or skipping one that cannot be read. -/
def memberOrRecovery (member : Parser (Option α)) (before : Nat) : Parser (Option α) :=
  orElse member fun diagnostic => do
    record diagnostic
    recoverFrom before
    return none

/-- Stepping over a token where none has been used up. -/
def stepIfStuck (before : Nat) : Parser Unit := do
  if (← get).remaining.length = before then advance

theorem memberRound_eq (state : σ) :
    memberRound atStop member add state = (do
      if ← atStop then return .done state
      else if ← skipFault then return .yield state
      else
        let before := (← get).remaining.length
        let read ← memberOrRecovery member before
        stepIfStuck before
        return .yield (addIfAny add state read)) := by
  have added (read : Option α) :
      (match read with
        | some found => (pure (.yield (add state found)) : Parser (ForInStep σ))
        | none => pure (.yield state)) = pure (.yield (addIfAny add state read)) := by
    cases read <;> rfl
  simp only [memberRound, memberOrRecovery, stepIfStuck, added, bind_assoc, pure_bind, ite_bind]

theorem forward_memberOrRecovery (forward : Forward member) (before : Nat) :
    Forward (memberOrRecovery member before) :=
  forward_orElse forward fun _ isError => (forward_record isError).bind fun _ =>
    (forward_recoverFrom before).bind fun _ => forward_pure none

theorem forward_stepIfStuck (before : Nat) : Forward (stepIfStuck before) :=
  Forward.behind_look get_apply fun _ => .ite forward_advance (forward_pure ())

theorem forward_memberRound (stops : StopsAtEnd atStop) (forward : Forward member)
    (state : σ) : Forward (memberRound atStop member add state) := by
  have atStopForward : Forward atStop := by
    intro file cursor
    obtain ⟨stop, run, -⟩ := stops file cursor
    rw [run]
    exact .refl cursor
  rw [memberRound_eq]
  refine atStopForward.bind fun _ => .ite (forward_pure _) (forward_skipFault.bind fun _ => ?_)
  refine .ite (forward_pure _) (Forward.behind_look get_apply fun _ => ?_)
  exact (forward_memberOrRecovery forward _).bind fun _ =>
    (forward_stepIfStuck _).bind fun _ => forward_pure _

/-- A fault that comes next has been passed and recorded. -/
theorem skipFault_apply (file : SourceFile) (cursor : Cursor) :
    (∃ spelling later, cursor.peek? 0 = some (.fault spelling) ∧
        skipFault file cursor = .ok true later ∧ later.remaining = cursor.advance.remaining ∧
        later.recorded ≠ cursor.recorded) ∨
      (∀ spelling, cursor.peek? 0 ≠ some (.fault spelling)) ∧
        skipFault file cursor = .ok false cursor := by
  simp only [skipFault, bind_apply, peek_apply]
  cases next : cursor.peek? 0 with
  | none => exact .inr ⟨by simp, rfl⟩
  | some kind =>
      cases kind with
      | fault spelling =>
          let reported : Cursor :=
            ⟨cursor.previous, cursor.remaining,
              cursor.recorded ++ [cursor.unexpected file "declaration"]⟩
          refine .inl ⟨spelling, reported.advance, rfl, ?_, ?_, ?_⟩
          · simp only [bind_apply, unexpected_apply, record_apply, advance_apply, pure_apply]
            rfl
          · obtain ⟨previous, remaining, recorded⟩ := cursor
            cases remaining <;> rfl
          · obtain ⟨previous, remaining, recorded⟩ := cursor
            cases remaining <;> simp [reported, Cursor.advance]
      | _ => exact .inr ⟨by simp, rfl⟩

theorem progresses_memberRound (stops : StopsAtEnd atStop) (forward : Forward member) :
    Progresses (memberRound atStop member add) := by
  intro file state next cursor later round
  obtain ⟨stop, stopRun, ends⟩ := stops file cursor
  rw [memberRound_eq, bind_apply, stopRun] at round
  cases stop with
  | true => cases round
  | false =>
      obtain ⟨kind, comes⟩ : ∃ kind, cursor.peek? 0 = some kind := by
        cases isNext : cursor.peek? 0 with
        | some kind => exact ⟨kind, rfl⟩
        | none =>
            have nothing : cursor.remaining = [] := by simpa [Cursor.peek?] using isNext
            cases ends nothing
      have less := Cursor.length_advance comes
      simp only [Bool.false_eq_true, if_false, bind_apply] at round
      rcases skipFault_apply file cursor with ⟨_, reached, -, skipped, passed, -⟩ | ⟨-, skipped⟩
      · simp only [skipped, if_true, pure_apply] at round
        cases round
        rw [passed]
        omega
      · simp only [skipped, Bool.false_eq_true, if_false, bind_apply, get_apply] at round
        cases read : memberOrRecovery member cursor.remaining.length file cursor with
        | error diagnostic reached => simp [read] at round
        | ok found reached =>
            have atMost := ((forward_memberOrRecovery forward _).of_ok read).length_le
            simp only [read, stepIfStuck, bind_apply, get_apply, ite_run, pure_apply] at round
            by_cases stuck : reached.remaining.length = cursor.remaining.length
            · simp only [if_pos stuck, advance_apply] at round
              cases round
              obtain ⟨other, next⟩ : ∃ kind, reached.peek? 0 = some kind := by
                cases isNext : reached.peek? 0 with
                | some kind => exact ⟨kind, rfl⟩
                | none =>
                    have nothing : reached.remaining = [] := by simpa [Cursor.peek?] using isNext
                    rw [nothing, List.length_nil] at stuck
                    omega
              have := Cursor.length_advance next
              omega
            · simp only [if_neg stuck] at round
              cases round
              omega

/-- Going through members never goes back. -/
theorem forward_memberLoop (stops : StopsAtEnd atStop) (forward : Forward member) (state : σ) :
    Forward (memberLoop atStop member add state) :=
  forward_loop (forward_memberRound stops forward) state

/-- A member that is read is added, and the loop goes on behind it. -/
theorem memberLoop_of_read (stops : StopsAtEnd atStop) (forward : Forward member)
    {file : SourceFile} {cursor later : Cursor} {read : Option α}
    (goesOn : atStop file cursor = .ok false cursor)
    (noFault : ∀ spelling, cursor.peek? 0 ≠ some (.fault spelling))
    (run : member file cursor = .ok read later)
    (passes : later.remaining.length < cursor.remaining.length) (state : σ) :
    memberLoop atStop member add state file cursor =
      memberLoop atStop member add (addIfAny add state read) file later := by
  refine loop_of_yield file (progresses_memberRound stops forward) ?_
  have skipped : skipFault file cursor = .ok false cursor := by
    rcases skipFault_apply file cursor with ⟨spelling, _, fault, -⟩ | ⟨-, skipped⟩
    · exact absurd fault (noFault spelling)
    · exact skipped
  show memberRound atStop member add state file cursor = _
  have notStuck : later.remaining.length ≠ cursor.remaining.length := by omega
  simp only [memberRound_eq, bind_apply, goesOn, skipped, Bool.false_eq_true, if_false, get_apply,
    memberOrRecovery, orElse, run, stepIfStuck, if_neg notStuck, pure_apply]

end MemberLoops

section TypeDeclarations

theorem forward_eatWord (word : String) : Forward (eatWord word) :=
  Forward.behind_look (fun file cursor => atWord_apply file cursor word) fun _ =>
    .ite (forward_advance.bind fun _ => forward_pure _) (forward_pure _)

theorem forward_throw {α : Type} {diagnostic : Diagnostic} (isError : diagnostic.isError = true) :
    Forward (throw diagnostic : Parser α) :=
  fun _ cursor => ⟨.refl cursor, isError⟩

theorem forward_skipUntil (marks : List Mark) : Forward (skipUntil marks) := by
  rw [skipUntil_eq]
  exact forward_skipBy _

theorem forward_typeKind : Forward typeKind := by
  refine Forward.behind_look peekName_apply fun word => forward_advance.bind fun _ => ?_
  split
  · exact forward_pure _
  · exact forward_pure _
  · exact forward_pure _
  · exact forward_pure _
  · exact (forward_eatWord _).bind fun _ =>
      .ite (forward_pure _) ((forward_eatWord _).bind fun _ => forward_pure _)

theorem forward_typeHead : Forward typeHead := by
  refine Forward.behind_look (fun file cursor => atMark_apply file cursor _) fun _ => ?_
  refine .ite (closes_typeParameters.forward.bind fun _ => ?_) ((forward_pure _).bind fun _ => ?_)
  all_goals
    refine Forward.behind_look (fun file cursor => atMark_apply file cursor _) fun _ => ?_
    exact .ite
      (forward_skipBalanced.bind fun _ => (forward_skipUntil _).bind fun _ => forward_pure _)
      ((forward_skipUntil _).bind fun _ => forward_pure _)

theorem forward_closeDeclaration (start : Span) : Forward (closeDeclaration start) :=
  (forward_eat _).bind fun _ => .ite (forward_pure _) (forward_throw rfl)

theorem forward_typeBody (kind : TypeKind) (start : Span) {member : Parser (Option TypeMember)}
    (forward : Forward member) : Forward (typeBody kind start member) := by
  have ends (members : List TypeMember) :
      Forward (eat .semicolon >>= fun _ => (pure members : Parser (List TypeMember))) :=
    (forward_eat .semicolon).bind fun _ => forward_pure members
  have skips : Forward (skipBalanced >>= fun _ => (pure [] : Parser (List TypeMember)) >>=
      fun members => eat .semicolon >>= fun _ => pure members) :=
    forward_skipBalanced.bind fun _ => (forward_pure []).bind ends
  refine (forward_eat .semicolon).bind fun _ => .ite (forward_pure _) (.ite ?_ ?_)
  · exact Forward.behind_look (fun file cursor => atMark_apply file cursor _) fun _ =>
      .ite skips ((forward_failExpecting _).bind fun _ => skips)
  · exact (forward_expect .leftBrace).bind fun _ =>
      (forward_memberLoop stopsAtEnd_atBodyEnd forward []).bind fun members =>
        (forward_closeDeclaration start).bind fun _ => (forward_pure members).bind ends

/-- Reading a type declaration never goes back. -/
theorem forward_typeDeclWithin (depth : Nat) (start : Span) (lists : List AttributeList)
    (words : List Modifier) : Forward (typeDeclWithin depth start lists words) := by
  induction depth generalizing start lists words with
  | zero => exact forward_failExpecting _
  | succ depth ih =>
      refine forward_typeKind.bind fun kind => forward_expectIdent.bind fun ⟨name, nameSpan⟩ => ?_
      refine forward_typeHead.bind fun parameters => ?_
      refine (forward_typeBody kind start (forward_typeMember _ ih)).bind fun members => ?_
      exact Forward.behind_look (fun file cursor => spanFrom_apply file cursor _) fun _ =>
        forward_pure _

end TypeDeclarations

end Parser

end ErrorAccessors
