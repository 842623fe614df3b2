/-
# The rounds of reading a type

The loops inside the reading of a type, one definition for each round, with the
facts that make loops of them: a round that does not leave its loop uses up a
token, and nothing that reads a part of a type ever puts tokens back or drops
diagnostics.  Type arguments that cannot be read are the exception that has to
be looked at, since there the cursor is set back to the opening bracket; it is
set back no further.
-/

import ErrorAccessors.Proofs.Run

namespace ErrorAccessors.Parser

section Definitions

variable (type : Parser TypeExpr)

/-- One round of reading type arguments. -/
def argumentRound (found : List TypeExpr) : Parser (ForInStep (List TypeExpr)) := do
  match ← attempt type with
  | none => return .done found
  | some argument =>
    let found := found ++ [argument]
    if ← eat .comma then return .yield found else return .done found

/-- One round of reading a dotted name. -/
def segmentRound (found : List NameSegment) : Parser (ForInStep (List NameSegment)) := do
  let (name, _) ← expectIdent
  let arguments ← if ← atMark .less then typeArguments type else pure []
  let found := found ++ [⟨name, arguments⟩]
  if (← atMark .dot) && (← secondIsIdent) then
    advance
    return .yield found
  else return .done found

/-- The type arguments behind a name, which may have none. -/
def argumentsIfAny : Parser (List TypeExpr) := do
  if ← atMark .less then typeArguments type else return []

/-- One round of reading tuple elements. -/
def elementRound (found : List TupleElement) : Parser (ForInStep (List TupleElement)) := do
  let element ← type
  let name ← peekName
  if name.isSome then advance
  let found := found ++ [⟨element, name⟩]
  if ← eat .comma then return .yield found else return .done found

/-- One round of counting the dimensions of an array. -/
def rankRound (rank : Nat) : Parser (ForInStep Nat) := do
  if ← eat .comma then return .yield (rank + 1) else return .done rank

/-- One round of reading suffixes. -/
def suffixRound (start : Span) (type : TypeExpr) : Parser (ForInStep TypeExpr) := do
  if ← eat .question then return .yield (.nullable type (← spanFrom start))
  else if ← eat .star then return .yield (.pointer type (← spanFrom start))
  else if (← atMark .leftBracket) &&
      ((← secondIsMark .rightBracket) || (← secondIsMark .comma)) then
    advance
    let rank ← loop 1 rankRound
    expect .rightBracket
    return .yield (.array type rank (← spanFrom start))
  else return .done type

end Definitions

section Evaluation

variable (type : Parser TypeExpr) (file : SourceFile) (cursor : Cursor)

theorem argumentRound_apply (found : List TypeExpr) :
    argumentRound type found file cursor =
      match type file cursor with
      | .error _ later => .ok (.done found) later
      | .ok argument later =>
        if later.peek? 0 = some (.mark .comma) then
          .ok (.yield (found ++ [argument])) later.advance
        else .ok (.done (found ++ [argument])) later := by
  simp only [argumentRound, bind_apply, attempt_apply]
  cases type file cursor with
  | error diagnostic later => rfl
  | ok argument later => exact eat_bind_apply file later .comma _

/-- Type arguments are either not read at all, or what the loop read is followed
by the closing bracket. -/
theorem typeArguments_apply :
    typeArguments type file cursor =
      match loop [] (argumentRound type) file cursor.advance with
      | .error diagnostic later => .error diagnostic later
      | .ok arguments later =>
        if arguments ≠ [] ∧ later.peek? 0 = some (.mark .greater) then
          .ok arguments later.advance
        else .ok [] cursor := by
  show (get >>= fun _ => advance >>= fun _ => loop [] (argumentRound type) >>= _) file cursor = _
  simp only [bind_apply, get_apply, advance_apply]
  cases loop [] (argumentRound type) file cursor.advance with
  | error diagnostic later => rfl
  | ok arguments later =>
      cases arguments with
      | nil => rfl
      | cons first rest =>
          simp only [ne_eq, reduceCtorEq, not_false_eq_true, true_and]
          exact eat_bind_apply file later .greater _

theorem argumentsIfAny_apply :
    argumentsIfAny type file cursor =
      if cursor.peek? 0 = some (.mark .less) then typeArguments type file cursor
      else .ok [] cursor := by
  simp only [argumentsIfAny, bind_apply, atMark_apply, beq_iff_eq, ite_run, pure_apply]

theorem segmentRound_apply (found : List NameSegment) :
    segmentRound type found file cursor =
      match (cursor.peek? 0).bind TokenKind.ident? with
      | none => .error (cursor.unexpected file "identifier") cursor
      | some name =>
        match argumentsIfAny type file cursor.advance with
        | .error diagnostic later => .error diagnostic later
        | .ok arguments later =>
          if later.peek? 0 = some (.mark .dot) ∧ (later.peek? 1).any TokenKind.isIdent then
            .ok (.yield (found ++ [⟨name, arguments⟩])) later.advance
          else .ok (.done (found ++ [⟨name, arguments⟩])) later := by
  simp only [segmentRound, bind_apply, expectIdent_apply]
  cases (cursor.peek? 0).bind TokenKind.ident? with
  | none => rfl
  | some name =>
      simp only [bind_apply, atMark_apply, beq_iff_eq, ite_run, pure_apply, secondIsIdent_apply,
        advance_apply, Bool.and_eq_true, argumentsIfAny_apply]
      by_cases less : cursor.advance.peek? 0 = some (.mark .less)
      · simp only [if_pos less]
        cases typeArguments type file cursor.advance with
        | error diagnostic later => rfl
        | ok arguments later => rfl
      · simp only [if_neg less]

theorem elementRound_apply (found : List TupleElement) :
    elementRound type found file cursor =
      match type file cursor with
      | .error diagnostic later => .error diagnostic later
      | .ok element later =>
        let name := (later.peek? 0).bind TokenKind.ident?
        let behind := if name.isSome then later.advance else later
        if behind.peek? 0 = some (.mark .comma) then
          .ok (.yield (found ++ [⟨element, name⟩])) behind.advance
        else .ok (.done (found ++ [⟨element, name⟩])) behind := by
  simp only [elementRound, bind_apply, peekName_apply]
  cases type file cursor with
  | error diagnostic later => rfl
  | ok element later =>
      cases ident : (later.peek? 0).bind TokenKind.ident? with
      | none =>
          simp only [ident, Option.isSome_none, Bool.false_eq_true, if_false]
          exact eat_bind_apply file later .comma _
      | some word =>
          simp only [ident, Option.isSome_some, if_true]
          exact eat_bind_apply file later.advance .comma _

theorem rankRound_apply (rank : Nat) :
    rankRound rank file cursor =
      if cursor.peek? 0 = some (.mark .comma) then .ok (.yield (rank + 1)) cursor.advance
      else .ok (.done rank) cursor :=
  eat_bind_apply file cursor .comma _

theorem suffixRound_apply (start : Span) (head : TypeExpr) :
    suffixRound start head file cursor =
      if cursor.peek? 0 = some (.mark .question) then
        .ok (.yield (.nullable head (cursor.advance.spanFrom start))) cursor.advance
      else if cursor.peek? 0 = some (.mark .star) then
        .ok (.yield (.pointer head (cursor.advance.spanFrom start))) cursor.advance
      else if cursor.peek? 0 = some (.mark .leftBracket) ∧
          (cursor.peek? 1 = some (.mark .rightBracket) ∨
            cursor.peek? 1 = some (.mark .comma)) then
        match loop 1 rankRound file cursor.advance with
        | .error diagnostic later => .error diagnostic later
        | .ok rank later =>
          if later.peek? 0 = some (.mark .rightBracket) then
            .ok (.yield (.array head rank (later.advance.spanFrom start))) later.advance
          else .error (later.unexpected file "`]`") later
      else .ok (.done head) cursor := by
  rw [suffixRound, eat_bind_apply]
  by_cases question : cursor.peek? 0 = some (.mark .question)
  · rw [if_pos question, if_pos question]
    simp only [if_true, bind_apply, spanFrom_apply, pure_apply]
  rw [if_neg question, if_neg question]
  simp only [Bool.false_eq_true, if_false]
  rw [eat_bind_apply]
  by_cases star : cursor.peek? 0 = some (.mark .star)
  · rw [if_pos star, if_pos star]
    simp only [if_true, bind_apply, spanFrom_apply, pure_apply]
  rw [if_neg star, if_neg star]
  simp only [Bool.false_eq_true, if_false, bind_apply, atMark_apply, secondIsMark_apply,
    Bool.and_eq_true, Bool.or_eq_true, beq_iff_eq]
  by_cases bracket : cursor.peek? 0 = some (.mark .leftBracket) ∧
      (cursor.peek? 1 = some (.mark .rightBracket) ∨ cursor.peek? 1 = some (.mark .comma))
  · rw [if_pos bracket, if_pos bracket]
    simp only [bind_apply, advance_apply]
    cases loop 1 rankRound file cursor.advance with
    | error diagnostic later => rfl
    | ok rank later =>
        simp only [expect_apply]
        by_cases closed : later.peek? 0 = some (.mark .rightBracket)
        · simp only [if_pos closed, spanFrom_apply, pure_apply]
        · simp only [if_neg closed]
          rfl
  · rw [if_neg bracket, if_neg bracket]
    rfl

theorem namedType_apply (start : Span) :
    namedType type start file cursor =
      if cursor.peek? 1 = some (.mark .doubleColon) then
        match (cursor.peek? 0).bind TokenKind.ident? with
        | none => .error (cursor.unexpected file "identifier") cursor
        | some name =>
          match nameSegments type file cursor.advance.advance with
          | .error diagnostic later => .error diagnostic later
          | .ok segments later => .ok (.named (some name) segments (later.spanFrom start)) later
      else
        match nameSegments type file cursor with
        | .error diagnostic later => .error diagnostic later
        | .ok segments later => .ok (.named none segments (later.spanFrom start)) later := by
  simp only [namedType, bind_apply, secondIsMark_apply, beq_iff_eq, ite_run, expectIdent_apply,
    pure_apply]
  by_cases qualified : cursor.peek? 1 = some (.mark .doubleColon)
  · rw [if_pos qualified, if_pos qualified]
    cases (cursor.peek? 0).bind TokenKind.ident? with
    | none => rfl
    | some name =>
        simp only [advance_apply]
        cases nameSegments type file cursor.advance.advance with
        | error diagnostic later => rfl
        | ok segments later => simp only [spanFrom_apply]
  · rw [if_neg qualified, if_neg qualified]
    cases nameSegments type file cursor with
    | error diagnostic later => rfl
    | ok segments later => simp only [spanFrom_apply]

theorem tupleType_apply (start : Span) :
    tupleType type start file cursor =
      match loop [] (elementRound type) file cursor.advance with
      | .error diagnostic later => .error diagnostic later
      | .ok elements later =>
        if later.peek? 0 = some (.mark .rightParen) then
          .ok (.tuple elements (later.advance.spanFrom start)) later.advance
        else .error (later.unexpected file "`)`") later := by
  show (advance >>= fun _ => loop [] (elementRound type) >>= _) file cursor = _
  simp only [bind_apply, advance_apply]
  cases loop [] (elementRound type) file cursor.advance with
  | error diagnostic later => rfl
  | ok elements later =>
      simp only [expect_apply]
      by_cases closed : later.peek? 0 = some (.mark .rightParen)
      · simp only [if_pos closed, spanFrom_apply, pure_apply]
      · simp only [if_neg closed]
        rfl

theorem typeWithin_apply (depth : Nat) :
    typeWithin (depth + 1) file cursor =
      if cursor.peek? 0 = some (.mark .leftParen) then
        match tupleType (typeWithin depth) (cursor.nextSpan file) file cursor with
        | .error diagnostic later => .error diagnostic later
        | .ok head later => typeSuffixes (cursor.nextSpan file) head file later
      else
        match (cursor.peek? 0).bind TokenKind.ident? with
        | none => .error (cursor.unexpected file "type") cursor
        | some name =>
          if TypeExpr.keywords.contains name then
            typeSuffixes (cursor.nextSpan file) (.predefined name (cursor.nextSpan file)) file
              cursor.advance
          else
            match namedType (typeWithin depth) (cursor.nextSpan file) file cursor with
            | .error diagnostic later => .error diagnostic later
            | .ok head later => typeSuffixes (cursor.nextSpan file) head file later := by
  simp only [typeWithin, bind_apply, nextSpan_apply, atMark_apply, beq_iff_eq, ite_run,
    peekName_apply]
  by_cases paren : cursor.peek? 0 = some (.mark .leftParen)
  · rw [if_pos paren, if_pos paren]
    cases tupleType (typeWithin depth) (cursor.nextSpan file) file cursor with
    | error diagnostic later => rfl
    | ok head later => rfl
  · rw [if_neg paren, if_neg paren]
    cases (cursor.peek? 0).bind TokenKind.ident? with
    | none => exact failExpecting_apply file cursor "type"
    | some name =>
        simp only [ite_run, bind_apply, advance_apply]
        by_cases keyword : TypeExpr.keywords.contains name = true
        · rw [if_pos keyword, if_pos keyword]
        · rw [if_neg keyword, if_neg keyword]
          cases namedType (typeWithin depth) (cursor.nextSpan file) file cursor with
          | error diagnostic later => rfl
          | ok head later => rfl

end Evaluation

theorem progresses_rankRound : Progresses rankRound := by
  intro file rank next cursor later round
  rw [rankRound_apply] at round
  by_cases comma : cursor.peek? 0 = some (.mark .comma)
  · rw [if_pos comma] at round
    cases round
    exact Nat.lt_of_succ_le (Nat.le_of_eq (Cursor.length_advance comma))
  · rw [if_neg comma] at round
    cases round

section Progress

variable {type : Parser TypeExpr} (forward : Forward type)
include forward

theorem forward_argumentRound (found : List TypeExpr) : Forward (argumentRound type found) := by
  refine (forward_attempt forward).bind fun argument => ?_
  cases argument with
  | none => exact forward_pure _
  | some argument =>
      exact (forward_eat .comma).bind fun _ => (forward_pure _).ite (forward_pure _)

theorem progresses_argumentRound : Progresses (argumentRound type) := by
  intro file found next cursor later round
  rw [argumentRound_apply] at round
  cases read : type file cursor with
  | error diagnostic reached =>
      rw [read] at round
      cases round
  | ok argument reached =>
      rw [read] at round
      by_cases comma : reached.peek? 0 = some (.mark .comma)
      · simp only [if_pos comma] at round
        cases round
        have before := (forward.of_ok read).length_le
        have passed := Cursor.length_advance comma
        omega
      · simp only [if_neg comma] at round
        cases round

/-- Type arguments that cannot be read are left where they are. -/
theorem forward_typeArguments : Forward (typeArguments type) := by
  intro file cursor
  rw [typeArguments_apply]
  have loops : Forward (loop [] (argumentRound type)) :=
    forward_loop (forward_argumentRound forward) []
  cases read : loop [] (argumentRound type) file cursor.advance with
  | error diagnostic later =>
      obtain ⟨reached, isError⟩ := loops.of_error read
      exact ⟨cursor.reaches_advance.trans reached, isError⟩
  | ok arguments later =>
      have reached := cursor.reaches_advance.trans (loops.of_ok read)
      by_cases closed : arguments ≠ [] ∧ later.peek? 0 = some (.mark .greater)
      · simp only [if_pos closed]
        exact reached.trans later.reaches_advance
      · simp only [if_neg closed]
        exact .refl cursor

theorem forward_segmentRound (found : List NameSegment) : Forward (segmentRound type found) := by
  refine forward_expectIdent.bind fun ⟨name, _⟩ => ?_
  refine Forward.behind_look (fun _ _ => rfl) fun _ => Forward.ite ?_ ?_
  · refine (forward_typeArguments forward).bind fun _ => ?_
    refine Forward.behind_look (fun _ _ => rfl) fun _ => ?_
    refine Forward.behind_look (fun _ _ => rfl) fun _ => ?_
    exact (forward_advance.bind fun _ => forward_pure _).ite (forward_pure _)
  · refine (forward_pure _).bind fun _ => ?_
    refine Forward.behind_look (fun _ _ => rfl) fun _ => ?_
    refine Forward.behind_look (fun _ _ => rfl) fun _ => ?_
    exact (forward_advance.bind fun _ => forward_pure _).ite (forward_pure _)

theorem forward_argumentsIfAny : Forward (argumentsIfAny type) :=
  Forward.behind_look (fun _ _ => rfl) fun _ =>
    (forward_typeArguments forward).ite (forward_pure [])

theorem progresses_segmentRound : Progresses (segmentRound type) := by
  intro file found next cursor later round
  rw [segmentRound_apply] at round
  cases ident : (cursor.peek? 0).bind TokenKind.ident? with
  | none => simp [ident] at round
  | some name =>
      obtain ⟨kind, first, _⟩ := Option.bind_eq_some_iff.mp ident
      have passed := Cursor.length_advance first
      rw [ident] at round
      cases read : argumentsIfAny type file cursor.advance with
      | error diagnostic reached => simp [read] at round
      | ok arguments reached =>
          have before := ((forward_argumentsIfAny forward).of_ok read).length_le
          have behind := reached.reaches_advance.length_le
          simp only [read] at round
          split at round
          · cases round
            omega
          · cases round

theorem forward_nameSegments : Forward (nameSegments type) :=
  forward_loop (forward_segmentRound forward) []

theorem forward_namedType (start : Span) : Forward (namedType type start) := by
  refine Forward.behind_look (fun _ _ => rfl) fun _ => Forward.ite ?_ ?_
  · refine forward_expectIdent.bind fun ⟨name, _⟩ => forward_advance.bind fun _ => ?_
    refine (forward_pure _).bind fun _ => (forward_nameSegments forward).bind fun _ => ?_
    exact Forward.behind_look (spanFrom_apply · · start) fun _ => forward_pure _
  · refine (forward_pure _).bind fun _ => (forward_nameSegments forward).bind fun _ => ?_
    exact Forward.behind_look (spanFrom_apply · · start) fun _ => forward_pure _

theorem forward_elementRound (found : List TupleElement) : Forward (elementRound type found) := by
  refine forward.bind fun element => Forward.behind_look (fun _ _ => rfl) fun name => ?_
  have goesOn : Forward (do
      if ← eat .comma then return ForInStep.yield (found ++ [⟨element, name⟩])
      else return ForInStep.done (found ++ [⟨element, name⟩])) :=
    (forward_eat .comma).bind fun _ => (forward_pure _).ite (forward_pure _)
  exact (forward_advance.bind fun _ => goesOn).ite goesOn

theorem progresses_elementRound : Progresses (elementRound type) := by
  intro file found next cursor later round
  rw [elementRound_apply] at round
  cases read : type file cursor with
  | error diagnostic reached => simp [read] at round
  | ok element reached =>
      have before := (forward.of_ok read).length_le
      simp only [read] at round
      have behind : (if ((reached.peek? 0).bind TokenKind.ident?).isSome then reached.advance
          else reached).remaining.length ≤ reached.remaining.length := by
        split
        · exact reached.reaches_advance.length_le
        · exact Nat.le_refl _
      generalize (if ((reached.peek? 0).bind TokenKind.ident?).isSome then reached.advance
          else reached) = named at round behind
      by_cases comma : named.peek? 0 = some (.mark .comma)
      · have passed := Cursor.length_advance comma
        simp only [if_pos comma] at round
        cases round
        omega
      · simp only [if_neg comma] at round
        cases round

theorem forward_tupleType (start : Span) : Forward (tupleType type start) := by
  refine forward_advance.bind fun _ => ?_
  refine (forward_loop (forward_elementRound forward) []).bind fun _ => ?_
  refine (forward_expect .rightParen).bind fun _ => ?_
  exact Forward.behind_look (spanFrom_apply · · start) fun _ => forward_pure _

end Progress

theorem forward_rankRound (rank : Nat) : Forward (rankRound rank) :=
  (forward_eat .comma).bind fun _ => (forward_pure _).ite (forward_pure _)

theorem forward_suffixRound (start : Span) (head : TypeExpr) :
    Forward (suffixRound start head) := by
  have yields (next : Span → TypeExpr) :
      Forward (do return ForInStep.yield (next (← spanFrom start))) :=
    Forward.behind_look (spanFrom_apply · · start) fun _ => forward_pure _
  refine (forward_eat .question).bind fun _ => (yields _).ite ?_
  refine (forward_eat .star).bind fun _ => (yields _).ite ?_
  refine Forward.behind_look (fun _ _ => rfl) fun _ => ?_
  refine Forward.behind_look (fun _ _ => rfl) fun _ => ?_
  refine Forward.behind_look (fun _ _ => rfl) fun _ => Forward.ite ?_ (forward_pure _)
  refine forward_advance.bind fun _ => (forward_loop forward_rankRound 1).bind fun _ => ?_
  exact (forward_expect .rightBracket).bind fun _ => yields _

theorem progresses_suffixRound (start : Span) : Progresses (suffixRound start) := by
  intro file head next cursor later round
  rw [suffixRound_apply] at round
  split at round
  · next question =>
    cases round
    exact Nat.lt_of_succ_le (Nat.le_of_eq (Cursor.length_advance question))
  split at round
  · next star =>
    cases round
    exact Nat.lt_of_succ_le (Nat.le_of_eq (Cursor.length_advance star))
  split at round
  · next bracket =>
    have passed := Cursor.length_advance bracket.1
    cases read : loop 1 rankRound file cursor.advance with
    | error diagnostic reached => simp [read] at round
    | ok rank reached =>
        have before := ((forward_loop forward_rankRound 1).of_ok read).length_le
        have behind := reached.reaches_advance.length_le
        simp only [read] at round
        split at round
        · cases round
          omega
        · cases round
  · cases round

theorem forward_typeSuffixes (start : Span) (head : TypeExpr) :
    Forward (typeSuffixes start head) :=
  forward_loop (forward_suffixRound start) head

theorem forward_typeWithin (depth : Nat) : Forward (typeWithin depth) := by
  induction depth with
  | zero => exact forward_failExpecting "type"
  | succ depth ih =>
      refine Forward.behind_look nextSpan_apply fun start => ?_
      refine Forward.behind_look (fun _ _ => rfl) fun _ => Forward.ite ?_ ?_
      · exact (forward_tupleType ih start).bind fun head => forward_typeSuffixes start head
      · refine Forward.behind_look (fun _ _ => rfl) fun name => ?_
        cases name with
        | none => exact forward_failExpecting "type"
        | some name =>
            refine Forward.ite ?_ ?_
            · exact forward_advance.bind fun _ => forward_typeSuffixes start _
            · exact (forward_namedType ih start).bind fun head => forward_typeSuffixes start head

theorem forward_type : Forward type :=
  fun file cursor => forward_typeWithin _ file cursor

section Depth

variable {first second : Parser TypeExpr} {file : SourceFile} {bound : Nat}
  (forward : Forward first)
  (agree : ∀ cursor : Cursor, cursor.remaining.length < bound →
    first file cursor = second file cursor)
include forward agree

theorem typeArguments_congr {cursor : Cursor} (next : cursor.peek? 0 = some (.mark .less))
    (within : cursor.remaining.length ≤ bound) :
    typeArguments first file cursor = typeArguments second file cursor := by
  have less := Cursor.length_advance next
  have rounds : loop [] (argumentRound first) file cursor.advance =
      loop [] (argumentRound second) file cursor.advance :=
    loop_congr (forward_argumentRound forward)
      (fun found reached within => by
        rw [argumentRound_apply, argumentRound_apply, agree reached within])
      [] (show cursor.advance.remaining.length < bound by omega)
  rw [typeArguments_apply, typeArguments_apply, rounds]

theorem nameSegments_congr {cursor : Cursor} (within : cursor.remaining.length ≤ bound) :
    nameSegments first file cursor = nameSegments second file cursor := by
  show loop [] (segmentRound first) file cursor = loop [] (segmentRound second) file cursor
  have wider : cursor.remaining.length < bound + 1 := by omega
  refine loop_congr (forward_segmentRound forward) (fun found reached within => ?_) [] wider
  rw [segmentRound_apply, segmentRound_apply]
  have arguments : argumentsIfAny first file reached.advance =
      argumentsIfAny second file reached.advance := by
    have behind := reached.reaches_advance.length_le
    rw [argumentsIfAny_apply, argumentsIfAny_apply]
    by_cases less : reached.advance.peek? 0 = some (.mark .less)
    · rw [if_pos less, if_pos less, typeArguments_congr forward agree less (by omega)]
    · rw [if_neg less, if_neg less]
  rw [arguments]

theorem namedType_congr (start : Span) {cursor : Cursor}
    (within : cursor.remaining.length ≤ bound) :
    namedType first start file cursor = namedType second start file cursor := by
  have behind := (cursor.reaches_advance.trans cursor.advance.reaches_advance).length_le
  rw [namedType_apply, namedType_apply, nameSegments_congr forward agree within,
    nameSegments_congr forward agree (Nat.le_trans behind within)]

theorem tupleType_congr (start : Span) {cursor : Cursor}
    (next : cursor.peek? 0 = some (.mark .leftParen)) (within : cursor.remaining.length ≤ bound) :
    tupleType first start file cursor = tupleType second start file cursor := by
  have less := Cursor.length_advance next
  have rounds : loop [] (elementRound first) file cursor.advance =
      loop [] (elementRound second) file cursor.advance :=
    loop_congr (forward_elementRound forward)
      (fun found reached within => by
        rw [elementRound_apply, elementRound_apply, agree reached within])
      [] (show cursor.advance.remaining.length < bound by omega)
  rw [tupleType_apply, tupleType_apply, rounds]

end Depth

/-- How deep types may nest does not matter as long as it is more than the number
of tokens. -/
theorem typeWithin_eq_typeWithin {first second : Nat} {file : SourceFile} {cursor : Cursor}
    (enoughFirst : cursor.remaining.length < first)
    (enoughSecond : cursor.remaining.length < second) :
    typeWithin first file cursor = typeWithin second file cursor := by
  induction first generalizing second cursor with
  | zero => exact absurd enoughFirst (Nat.not_lt_zero _)
  | succ first ih =>
      obtain ⟨second, rfl⟩ : ∃ less, second = less + 1 := ⟨second - 1, by omega⟩
      have forward := forward_typeWithin first
      let bound := min first second
      have agree : ∀ reached : Cursor, reached.remaining.length < bound →
          typeWithin first file reached = typeWithin second file reached :=
        fun reached within => ih (by omega) (by omega)
      have within : cursor.remaining.length ≤ bound := by omega
      rw [typeWithin_apply, typeWithin_apply, namedType_congr forward agree _ within]
      by_cases paren : cursor.peek? 0 = some (.mark .leftParen)
      · rw [if_pos paren, if_pos paren, tupleType_congr forward agree _ paren within]
      · rw [if_neg paren, if_neg paren]

/-- A type is read with any bound on its depth that exceeds the number of
tokens. -/
theorem typeWithin_eq_type {depth : Nat} {file : SourceFile} {cursor : Cursor}
    (enough : cursor.remaining.length < depth) :
    typeWithin depth file cursor = type file cursor :=
  typeWithin_eq_typeWithin enough (Nat.lt_succ_self _)

end ErrorAccessors.Parser
