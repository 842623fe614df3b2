/-
# The tokens of a method body

A body is skipped: a block by counting delimiters, an expression up to the token that
ends a statement.  What is read of it is only of which sort it is.  The tokens of a body
may therefore be replaced by any others whose delimiters are properly nested, and in an
expression none of those outside of delimiters may end it.
-/

import ErrorAccessors.Proofs.MethodReading

namespace ErrorAccessors

section Nesting

/-- The delimiters that are counted, each with the one that closes it. -/
def Mark.delimiters : List (Mark × Mark) :=
  [(.leftParen, .rightParen), (.leftBracket, .rightBracket), (.leftBrace, .rightBrace)]

/-- One of two delimiters that belong together opens, and the other one closes. -/
theorem Mark.delimits {opening closing : Mark} (pair : (opening, closing) ∈ delimiters) :
    opening.opens = true ∧ closing.opens = false ∧ closing.closes = true := by
  simp only [delimiters, List.mem_cons, Prod.mk.injEq, List.not_mem_nil, or_false] at pair
  obtain ⟨rfl, rfl⟩ | ⟨rfl, rfl⟩ | ⟨rfl, rfl⟩ := pair <;> decide

/-- Tokens whose delimiters are properly nested. -/
inductive Nested : List TokenKind → Prop
  | nil : Nested []
  | token {kind : TokenKind} {others : List TokenKind} (opens : kind.opens = false)
      (closes : kind.closes = false) (behind : Nested others) : Nested (kind :: others)
  | group {opening closing : Mark} {inside others : List TokenKind}
      (pair : (opening, closing) ∈ Mark.delimiters) (within : Nested inside)
      (behind : Nested others) : Nested (.mark opening :: (inside ++ .mark closing :: others))

/-- Tokens none of which ends a statement outside of delimiters, that is behind tokens whose
delimiters are properly nested. -/
def EndsNowhere (kinds : List TokenKind) : Prop :=
  ∀ front kind behind, kinds = front ++ kind :: behind → Nested front →
    kind ≠ .mark .semicolon ∧ kind ≠ .mark .rightBrace

/-- Which tokens may stand in the place of a body. -/
def MethodBody.Admits : MethodBody → List TokenKind → Prop
  | .block, kinds => Nested kinds ∧ .openString ∉ kinds
  | .expression, kinds => Nested kinds ∧ EndsNowhere kinds ∧ .openString ∉ kinds
  | .absent, kinds => kinds = []

/-- No string literal is left open in a body. -/
theorem MethodBody.Admits.closed {body : MethodBody} {kinds : List TokenKind}
    (admits : body.Admits kinds) : TokenKind.openString ∉ kinds := by
  cases body with
  | block => exact admits.2
  | expression => exact admits.2.2
  | absent =>
      obtain rfl : kinds = [] := admits
      exact List.not_mem_nil

end Nesting

namespace Parser

section Skipping

/-- Looking for the closing delimiter passes over tokens whose delimiters are nested. -/
theorem closing?_of_nested {kinds : List TokenKind} (nested : Nested kinds) {tokens : List Token}
    (areKinds : tokens.map (·.kind) = kinds) (depth : Nat) (rest : List Token) :
    closing? (depth + 1) (tokens ++ rest) = closing? (depth + 1) rest := by
  induction nested generalizing tokens depth rest with
  | nil =>
      obtain rfl : tokens = [] := by simpa using areKinds
      rfl
  | token opens closes _ ih =>
      obtain ⟨token, behind, rfl, rfl, areOthers⟩ := List.map_eq_cons_iff.mp areKinds
      rw [List.cons_append, closing?, opens, closes]
      exact ih areOthers depth rest
  | group pair _ _ ihWithin ihBehind =>
      obtain ⟨first, behind, rfl, opens, areKinds⟩ := List.map_eq_cons_iff.mp areKinds
      obtain ⟨within, behind, rfl, areInside, areKinds⟩ := List.map_eq_append_iff.mp areKinds
      obtain ⟨last, behind, rfl, closes, areOthers⟩ := List.map_eq_cons_iff.mp areKinds
      obtain ⟨isOpening, noOpening, isClosing⟩ := Mark.delimits pair
      simp only [List.cons_append, List.append_assoc]
      rw [closing?, opens]
      simp only [TokenKind.opens, isOpening, if_true]
      rw [ihWithin areInside, closing?, closes]
      simp only [TokenKind.opens, TokenKind.closes, noOpening, isClosing, if_true,
        Bool.false_eq_true, if_false, Nat.add_sub_cancel, show ¬depth + 1 + 1 ≤ 1 by omega]
      exact ihBehind areOthers depth rest

/-- Nested tokens between delimiters are a delimited part. -/
theorem enclosed_of_nested {opening closing : Mark} {kinds : List TokenKind}
    (pair : (opening, closing) ∈ Mark.delimiters) (nested : Nested kinds) {tokens : List Token}
    (areKinds : tokens.map (·.kind) = .mark opening :: (kinds ++ [.mark closing])) :
    Enclosed opening tokens := by
  obtain ⟨first, behind, rfl, opens, areKinds⟩ := List.map_eq_cons_iff.mp areKinds
  obtain ⟨within, behind, rfl, areInside, areKinds⟩ := List.map_eq_append_iff.mp areKinds
  obtain ⟨last, rfl, closes⟩ := List.map_eq_singleton_iff.mp areKinds
  obtain ⟨isOpening, noOpening, isClosing⟩ := Mark.delimits pair
  refine ⟨congrArg some opens, last, ?_⟩
  rw [closing?, opens]
  simp only [TokenKind.opens, isOpening, if_true]
  rw [closing?_of_nested nested areInside, closing?, closes]
  simp [TokenKind.opens, TokenKind.closes, noOpening, isClosing]

/-- A token that no delimiter is and that ends no statement is skipped by itself. -/
private theorem statementAction_of_inner {kind : TokenKind} (opens : kind.opens = false)
    (inner : kind ≠ .mark .semicolon ∧ kind ≠ .mark .rightBrace) :
    statementAction kind = .step := by
  cases kind with
  | mark mark =>
      cases mark <;>
        first | rfl | exact absurd rfl inner.1 | exact absurd rfl inner.2 | cases opens
  | _ => rfl

/-- Nested tokens none of which ends a statement are skipped up to what ends it. -/
theorem skippedBy_of_nested {kinds : List TokenKind} (nested : Nested kinds)
    (endsNowhere : EndsNowhere kinds) {tokens : List Token}
    (areKinds : tokens.map (·.kind) = kinds) : SkippedBy statementAction tokens := by
  induction nested generalizing tokens with
  | nil =>
      obtain rfl : tokens = [] := by simpa using areKinds
      exact .nil
  | @token kind others opens closes _ ih =>
      obtain ⟨token, behind, rfl, rfl, areOthers⟩ := List.map_eq_cons_iff.mp areKinds
      refine .step (statementAction_of_inner opens (endsNowhere [] _ _ rfl .nil)) (ih ?_ areOthers)
      exact fun front kind rest isSplit nested =>
        endsNowhere (_ :: front) kind rest (congrArg (_ :: ·) isSplit) (.token opens closes nested)
  | @group opening closing inside others pair within _ _ ih =>
      rw [← List.singleton_append (l := others), ← List.append_assoc,
        ← List.cons_append] at areKinds
      obtain ⟨group, behind, rfl, areGroup, areOthers⟩ := List.map_eq_append_iff.mp areKinds
      have does : statementAction (.mark opening) = .whole := by
        simp only [Mark.delimiters, List.mem_cons, Prod.mk.injEq, List.not_mem_nil,
          or_false] at pair
        obtain ⟨rfl, -⟩ | ⟨rfl, -⟩ | ⟨rfl, -⟩ := pair <;> rfl
      refine .whole does (enclosed_of_nested pair within areGroup) (ih ?_ areOthers)
      intro front kind rest isSplit nested
      refine endsNowhere (.mark opening :: (inside ++ .mark closing :: front)) kind rest ?_
        (.group pair within nested)
      simp [isSplit]

end Skipping

section Bodies

/-- The tokens of a body in front of another token or the end of the file: what opens it, what
is inside of it and what ends it.  An expression ends with a semicolon, or with the block
around it. -/
inductive BodyTokens (next : Option TokenKind) : MethodBody → Token → List Token → List Token → Prop
  | block {opening closing : Token} {inside : List Token} (opens : opening.kind = .mark .leftBrace)
      (closed : closing? 0 (opening :: (inside ++ [closing])) = some (closing, [])) :
      BodyTokens next .block opening inside [closing]
  | expression {arrow semicolon : Token} {inside : List Token} (arrows : arrow.kind = .mark .arrow)
      (skipped : SkippedBy statementAction inside) (ends : semicolon.kind = .mark .semicolon) :
      BodyTokens next .expression arrow inside [semicolon]
  | openExpression {arrow : Token} {inside : List Token} (arrows : arrow.kind = .mark .arrow)
      (skipped : SkippedBy statementAction inside)
      (stops : ∀ kind, next = some kind → kind = .mark .rightBrace) :
      BodyTokens next .expression arrow inside []
  | absent {semicolon : Token} (ends : semicolon.kind = .mark .semicolon) :
      BodyTokens next .absent semicolon [] []

variable {next : Option TokenKind} {body : MethodBody} {opening copy : Token}
  {inside ending filling closing rest : List Token} {file : SourceFile} {cursor later : Cursor}

/-- A body begins with a token behind which nobody looks. -/
theorem BodyTokens.looksFurther (tokens : BodyTokens next body opening inside ending) :
    opening.kind.looksFurther = false := by
  cases tokens with
  | block isKind | expression isKind | openExpression isKind | absent isKind =>
      rw [isKind]
      rfl

/-- A statement goes on up to a closing brace or through a semicolon. -/
private theorem statement_of_skipStatement (run : skipStatement file cursor = .ok () later)
    (silent : later.recorded = cursor.recorded) :
    ∃ inside ending, cursor.remaining = inside ++ (ending ++ later.remaining) ∧
      SkippedBy statementAction inside ∧
      ((ending = [] ∧ ∀ kind, later.peek? 0 = some kind → kind = .mark .rightBrace) ∨
        ∃ semicolon, ending = [semicolon] ∧ semicolon.kind = .mark .semicolon) := by
  have stops (kind : TokenKind) (does : statementAction kind = .stop) :
      kind = .mark .rightBrace := by
    cases kind with
    | mark mark => cases mark <;> first | rfl | cases does
    | _ => cases does
  have ends (kind : TokenKind) (does : statementAction kind = .stepAndStop) :
      kind = .mark .semicolon := by
    cases kind with
    | mark mark => cases mark <;> first | rfl | cases does
    | _ => cases does
  rw [skipStatement_eq] at run
  obtain ⟨inside, ending, passed, skipped, ⟨isEmpty, stop⟩ | ⟨last, isLast, does⟩⟩ :=
    skipped_of_skipBy skipsGroups_statementAction run silent
  · exact ⟨inside, ending, passed, skipped,
      .inl ⟨isEmpty, fun kind isNext => stops kind (stop kind isNext)⟩⟩
  · exact ⟨inside, ending, passed, skipped, .inr ⟨last, isLast, ends _ does⟩⟩

/-- What has been read as a body are the tokens of this body. -/
theorem tokens_of_methodBody (run : methodBody file cursor = .ok body later)
    (silent : later.recorded = cursor.recorded) :
    ∃ opening inside ending,
      cursor.remaining = opening :: (inside ++ (ending ++ later.remaining)) ∧
      BodyTokens (later.peek? 0) body opening inside ending := by
  rw [methodBody_apply] at run
  split at run
  · next opens =>
    rw [skipBalanced_apply] at run
    obtain ⟨opening, isOpening, remaining⟩ := Cursor.remaining_eq_cons opens
    cases found : closing? 0 cursor.remaining with
    | none =>
        simp only [found] at run
        cases run
        simp at silent
    | some result =>
        obtain ⟨last, behind⟩ := result
        simp only [found] at run
        cases run
        obtain ⟨before, tokens, closes, again⟩ := closing?_eq_some found
        cases before with
        | nil =>
            obtain rfl : opening = last := (List.cons.inj (remaining.symm.trans tokens)).1
            rw [isOpening] at closes
            cases closes
        | cons first inside =>
            obtain rfl : opening = first := (List.cons.inj (remaining.symm.trans tokens)).1
            exact ⟨opening, inside, [last], tokens, .block isOpening (again _ [] last rfl rfl)⟩
  split at run
  · next arrows =>
    obtain ⟨arrow, isArrow, remaining⟩ := Cursor.remaining_eq_cons arrows
    cases statement : skipStatement file cursor.advance with
    | error diagnostic reached => simp [statement] at run
    | ok _ reached =>
    simp only [statement] at run
    cases run
    have onward : Forward skipStatement := by
      rw [skipStatement_eq]
      exact forward_skipBy statementAction
    obtain ⟨-, silentBehind⟩ :=
      cursor.reaches_advance.recorded_eq (onward.of_ok statement) silent
    obtain ⟨inside, ending, passed, skipped, ⟨rfl, stops⟩ | ⟨semicolon, rfl, ends⟩⟩ :=
      statement_of_skipStatement statement silentBehind
    · exact ⟨arrow, inside, [], by rw [remaining, passed], .openExpression isArrow skipped stops⟩
    · exact ⟨arrow, inside, [semicolon], by rw [remaining, passed],
        .expression isArrow skipped ends⟩
  split at run
  · next ends =>
    obtain ⟨semicolon, isSemicolon, remaining⟩ := Cursor.remaining_eq_cons ends
    cases run
    exact ⟨semicolon, [], [], remaining, .absent isSemicolon⟩
  · cases run

/-- The tokens of a body are read as this body in front of what comes behind them. -/
theorem methodBody_of_tokens (previous : Option Token) (recorded : List Diagnostic)
    (tokens : BodyTokens (rest.head?.map (·.kind)) body opening inside ending) :
    methodBody file ⟨previous, opening :: (inside ++ (ending ++ rest)), recorded⟩ =
      .ok body ⟨Token.lastOf (some opening) (inside ++ ending), rest, recorded⟩ := by
  have closed (writes : WritesBody (opening :: (inside ++ ending)) body) :
      methodBody file ⟨previous, opening :: (inside ++ (ending ++ rest)), recorded⟩ =
        .ok body ⟨Token.lastOf (some opening) (inside ++ ending), rest, recorded⟩ := by
    have read := methodBody_of_writes writes file previous rest recorded
    rwa [List.cons_append, List.append_assoc] at read
  cases tokens with
  | block opens enclosed => exact closed (.block ⟨congrArg some opens, _, enclosed⟩)
  | expression arrows skipped ends => exact closed (.expression arrows skipped ends)
  | absent ends => exact closed (.absent ends)
  | openExpression arrows skipped stops =>
      let behind : Cursor := ⟨Token.lastOf (some opening) inside, rest, recorded⟩
      have statement : skipStatement file ⟨some opening, inside ++ rest, recorded⟩ =
          .ok () behind := by
        rw [skipStatement_eq, skipBy_of_skipped file (some opening) recorded skipped]
        cases isNext : behind.peek? 0 with
        | none =>
            refine loop_of_done file (progresses_skipRound statementAction) ?_
            rw [skipRound_apply, isNext]
        | some kind =>
            rw [Cursor.peek?, ← List.head?_eq_getElem?] at isNext
            obtain rfl := stops kind isNext
            refine skipBy_of_stop file ?_ (rfl : statementAction (.mark .rightBrace) = .stop)
            rw [Cursor.peek?, ← List.head?_eq_getElem?]
            exact isNext
      rw [methodBody_apply, Cursor.peek?_zero_cons, arrows, if_neg (by simp), if_pos rfl,
        Cursor.advance_cons, List.nil_append, statement, List.append_nil]

/-- The tokens inside of a body may be replaced by any others that it admits. -/
theorem BodyTokens.refilled (tokens : BodyTokens next body opening inside ending)
    (opens : copy.kind = opening.kind)
    (fills : filling.map (·.kind) = inside.map (·.kind) ∨ body.Admits (filling.map (·.kind)))
    (closes : closing.map (·.kind) = ending.map (·.kind)) :
    BodyTokens next body copy filling closing := by
  cases tokens with
  | @block opening last inside isOpening closed =>
      obtain ⟨final, rfl, isFinal⟩ := List.map_eq_singleton_iff.mp closes
      have isFinal : final.kind = last.kind := isFinal
      refine .block (opens.trans isOpening) ?_
      rcases fills with same | ⟨nested, -⟩
      · obtain ⟨before, isSplit, -, again⟩ := closing?_eq_some closed
        have isBefore : opening :: inside = before := by
          rw [← List.cons_append] at isSplit
          exact List.append_cancel_right isSplit
        refine again (copy :: filling) [] final ?_ isFinal
        rw [← isBefore, List.map_cons, List.map_cons, opens, same]
      · obtain ⟨-, -, isClosing, -⟩ := closing?_eq_some closed
        rw [← isFinal] at isClosing
        have noOpening : final.kind.opens = false := by
          cases isMark : final.kind with
          | mark mark => rw [isMark] at isClosing; cases mark <;> first | rfl | cases isClosing
          | _ => rfl
        rw [closing?, opens, isOpening]
        simp only [TokenKind.opens, Mark.opens, if_true]
        rw [closing?_of_nested nested rfl, closing?, noOpening, isClosing]
        rfl
  | expression arrows skipped ends =>
      obtain ⟨final, rfl, isFinal⟩ := List.map_eq_singleton_iff.mp closes
      refine .expression (opens.trans arrows) ?_ (isFinal.trans ends)
      rcases fills with same | ⟨nested, endsNowhere, -⟩
      · exact skipped.of_kinds same
      · exact skippedBy_of_nested nested endsNowhere rfl
  | openExpression arrows skipped stops =>
      obtain rfl := List.map_eq_nil_iff.mp closes
      refine .openExpression (opens.trans arrows) ?_ stops
      rcases fills with same | ⟨nested, endsNowhere, -⟩
      · exact skipped.of_kinds same
      · exact skippedBy_of_nested nested endsNowhere rfl
  | absent ends =>
      obtain rfl := List.map_eq_nil_iff.mp closes
      obtain rfl : filling = [] := by
        rcases fills with same | nothing
        · exact List.map_eq_nil_iff.mp same
        · exact List.map_eq_nil_iff.mp nothing
      exact .absent (opens.trans ends)

end Bodies

section Heads

/-- The marks in front of which the clauses of a method end. -/
def bodyMarks : List Mark := [.leftBrace, .arrow, .semicolon, .rightBrace]

/-- The tokens of a method between its return type and its body: its name with what belongs
to it, the parameter list, and the clauses behind it. -/
structure HeadTokens (nameSpan : Span) (names list clauses : List Token) : Prop where
  named : ∃ token ∈ names, token.span = nameSpan
  listed : Enclosed .leftParen list
  skipped : SkippedBy (untilAction bodyMarks) clauses

private theorem skipsGroups_untilAction (marks : List Mark) : SkipsGroups (untilAction marks) := by
  refine ⟨fun kind whole => ?_, fun kind block => ?_⟩
  · cases kind with
    | mark mark =>
        simp only [untilAction] at whole
        split at whole
        · cases whole
        split at whole
        · next opens => rcases opens with rfl | rfl <;> rfl
        · cases whole
    | _ => cases whole
  · cases kind with
    | mark mark =>
        simp only [untilAction] at block
        split at block
        · cases block
        split at block <;> cases block
    | _ => cases block

private theorem untilAction_ne_stepAndStop (marks : List Mark) (kind : TokenKind) :
    untilAction marks kind ≠ .stepAndStop := by
  cases kind with
  | mark mark =>
      simp only [untilAction]
      split
      · simp
      split <;> simp
  | _ => simp [untilAction]

/-- What has been read of a method up to its body are the tokens of its head. -/
theorem tokens_of_methodHead {found : String × Span × List String}
    (run : methodHead file cursor = .ok (some found) later)
    (silent : later.recorded = cursor.recorded) :
    ∃ names list clauses, cursor.remaining = (names ++ (list ++ clauses)) ++ later.remaining ∧
      HeadTokens found.2.1 names list clauses := by
  obtain ⟨name, span, parameters⟩ := found
  obtain ⟨-, behindName, behindList, named, opened, listed, skipped⟩ := parts_of_methodHead run
  have readsName : Repeats memberName memberName fun found => (found.1, found.2.2) :=
    repeats_memberName
  have reachesList := forward_skipBalanced.of_ok listed
  have reachesBody := (repeats_skipUntil _).forward.of_ok skipped
  obtain ⟨-, silent⟩ :=
    (readsName.forward.of_ok named).recorded_eq (reachesList.trans reachesBody) silent
  obtain ⟨silentList, silentClauses⟩ := reachesList.recorded_eq reachesBody silent
  obtain ⟨before, token, behind, passedName, isName⟩ := passesName_of_memberName named
  obtain ⟨mark, list, isMark, passedList, enclosed⟩ :=
    enclosed_of_skipBalanced opened rfl listed silentList
  obtain rfl : Mark.leftParen = mark := TokenKind.mark.inj isMark
  rw [skipUntil_eq] at skipped
  obtain ⟨clauses, ending, passed, isSkipped, ⟨rfl, -⟩ | ⟨last, -, does⟩⟩ :=
    skipped_of_skipBy (skipsGroups_untilAction _) skipped silentClauses
  · refine ⟨before ++ token :: behind, list, clauses, ?_, ⟨token, by simp, isName⟩, enclosed,
      isSkipped⟩
    rw [passedName, passedList, passed]
    simp
  · exact absurd does (untilAction_ne_stepAndStop _ _)

end Heads

section Tails

/-- The tail of a method with these tokens is read in the same way, wherever it stands and
whatever the tokens of its body are replaced by. -/
def RefillsTail (file : SourceFile) (next : Option TokenKind) (head : List Token) (opening : Token)
    (inside ending : List Token) (tail : MethodTail) : Prop :=
  ∀ (other : SourceFile) (previous : Option Token) (start : List Token) (copy : Token)
    (filling closing rest : List Token) (recorded : List Diagnostic),
    Token.Alike file head other start → copy.kind = opening.kind →
    (filling.map (·.kind) = inside.map (·.kind) ∨ tail.body.Admits (filling.map (·.kind))) →
    closing.map (·.kind) = ending.map (·.kind) → rest.head?.map (·.kind) = next →
      ∃ again : MethodTail, again.unplaced = tail.unplaced ∧
        methodTail other ⟨previous, start ++ (copy :: (filling ++ (closing ++ rest))), recorded⟩ =
          .ok (some again)
            ⟨Token.lastOf previous (start ++ copy :: (filling ++ closing)), rest, recorded⟩

/-- What has been read of a method behind its return type are the tokens of its head and of
its body, and the latter may be replaced. -/
theorem tokens_of_methodTail {file : SourceFile} {cursor later : Cursor} {tail : MethodTail}
    (run : methodTail file cursor = .ok (some tail) later)
    (silent : later.recorded = cursor.recorded) :
    ∃ names list clauses opening inside ending,
      cursor.remaining = (names ++ (list ++ clauses)) ++
        (opening :: (inside ++ (ending ++ later.remaining))) ∧
      HeadTokens tail.nameSpan names list clauses ∧
      BodyTokens (later.peek? 0) tail.body opening inside ending ∧
      RefillsTail file (later.peek? 0) (names ++ (list ++ clauses)) opening inside ending tail := by
  obtain ⟨atBody, headRead, bodyRead⟩ := parts_of_methodTail run
  have bodyRepeats : Repeats methodBody methodBody id := repeats_methodBody
  obtain ⟨silentHead, silentBody⟩ := (repeats_methodHead.forward.of_ok headRead).recorded_eq
    (bodyRepeats.forward.of_ok bodyRead) silent
  obtain ⟨names, list, clauses, passedHead, isHead⟩ := tokens_of_methodHead headRead silentHead
  obtain ⟨opening, inside, ending, passedBody, isBody⟩ := tokens_of_methodBody bodyRead silentBody
  obtain ⟨head, alsoPassed, headAgain⟩ :=
    repeats_methodHead.rereads file cursor atBody _ headRead silentHead trivial
  obtain rfl : head = names ++ (list ++ clauses) :=
    List.append_cancel_right (alsoPassed.symm.trans passedHead)
  refine ⟨names, list, clauses, opening, inside, ending, by rw [passedHead, passedBody], isHead,
    isBody, ?_⟩
  intro other previous start copy filling closing rest recorded alike opens fills closes isNext
  -- only the opening token is seen of the body when its head is read
  have inFront : atBody.SameNext
      ⟨Token.lastOf previous start, copy :: (filling ++ (closing ++ rest)), recorded⟩ :=
    .of_kind isBody.looksFurther opens passedBody rfl
  obtain ⟨found, same, runHead⟩ := headAgain other previous start
    (copy :: (filling ++ (closing ++ rest))) recorded alike inFront
  obtain ⟨⟨name, nameSpan, parameters⟩, rfl, sameName⟩ := Option.map_eq_some_iff.mp same
  obtain ⟨rfl, rfl⟩ := Prod.mk.inj sameName
  have refilled := isBody.refilled opens fills closes
  rw [← isNext] at refilled
  refine ⟨⟨_, nameSpan, _, tail.body⟩, rfl, ?_⟩
  rw [methodTail_eq, bind_apply, runHead]
  simp only [bind_apply, methodBody_of_tokens (Token.lastOf previous start) recorded refilled,
    pure_apply, Token.lastOf_append, Token.lastOf_cons]

end Tails

end Parser

end ErrorAccessors
