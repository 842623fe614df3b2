/-
# Reading attributes elsewhere

The attribute lists in front of a declaration are read in the same way wherever
they stand, as long as no further list follows.  The value of an argument that
is no literal is the text that was written, so that two stretches have to agree
in their text and not only in their tokens.

Type arguments of an attribute are the one place where the reader may look far
ahead in vain.  An attribute that is followed by an opening angle bracket is
never part of a list, so that nothing has to be said about it.
-/

import ErrorAccessors.Proofs.Skipping

namespace ErrorAccessors

/-- The last tokens of two stretches of one length belong to each other. -/
private theorem getLast_mem_zip {tokens copies : List Token} (nonempty : tokens ≠ [])
    (copied : copies ≠ []) (lengths : copies.length = tokens.length) :
    (tokens.getLast nonempty, copies.getLast copied) ∈ tokens.zip copies := by
  have last : tokens.length - 1 < tokens.length :=
    Nat.sub_lt (List.length_pos_iff.mpr nonempty) Nat.one_pos
  refine List.mem_iff_getElem.mpr ⟨tokens.length - 1, ?_, ?_⟩
  · rw [List.length_zip, lengths, Nat.min_self]
    exact last
  · simp only [List.getElem_zip, List.getLast_eq_getElem, lengths]

/-- The text of equal tokens is the same. -/
theorem Token.Alike.argumentValue_eq {file other : SourceFile} {tokens copies : List Token}
    (alike : Token.Alike file tokens other copies) :
    Parser.argumentValue other copies = Parser.argumentValue file tokens := by
  rw [Parser.argumentValue, Parser.argumentValue, alike.kinds]
  cases Parser.literal? (tokens.map (·.kind)) with
  | some value => rfl
  | none =>
      cases tokens with
      | nil =>
          obtain rfl := alike.of_nil
          rfl
      | cons first rest =>
          obtain ⟨copy, copies, rfl, -, -⟩ := alike.of_cons
          have slices := alike.slices (first, copy) (by simp) _
            (getLast_mem_zip (List.cons_ne_nil _ _) (List.cons_ne_nil _ _) alike.length_eq)
          simp only [List.head?_cons, List.getLast?_eq_some_getLast, ne_eq, reduceCtorEq,
            not_false_eq_true, slices]

namespace Parser

section Arguments

/-- Whether an argument that is passed by name comes next. -/
private def atNamedArgument : Parser Bool := do
  return (← atIdent) && ((← secondIsMark .colon) || (← secondIsMark .equals))

private theorem argumentName_eq :
    argumentName = (do
      if ← atNamedArgument then
        let (name, _) ← expectIdent
        advance
        return some name
      else return none) := by
  simp only [argumentName, atNamedArgument, bind_assoc, pure_bind]

/-- An argument is named by an identifier in front of a colon or an equals sign. -/
theorem argumentName_apply (file : SourceFile) (cursor : Cursor) :
    argumentName file cursor =
      match (cursor.peek? 0).bind TokenKind.ident? with
      | none => .ok none cursor
      | some name =>
        if cursor.peek? 1 = some (.mark .colon) ∨ cursor.peek? 1 = some (.mark .equals) then
          .ok (some name) cursor.advance.advance
        else .ok none cursor := by
  have looks : atNamedArgument file cursor =
      .ok (((cursor.peek? 0).bind TokenKind.ident?).isSome &&
        (cursor.peek? 1 == some (.mark .colon) || cursor.peek? 1 == some (.mark .equals))) cursor :=
    rfl
  rw [argumentName_eq, bind_apply, looks]
  cases named : (cursor.peek? 0).bind TokenKind.ident? with
  | none => rfl
  | some name =>
      simp only [Option.isSome_some, Bool.true_and, Bool.or_eq_true, beq_iff_eq, ite_run,
        bind_apply, expectIdent_apply, named, advance_apply, pure_apply]

theorem repeats_argumentName {guard : Option String → Cursor → Prop} :
    RepeatsBefore guard argumentName argumentName id := by
  have looks {guard : Bool → Cursor → Prop} :
      RepeatsBefore guard atNamedArgument atNamedArgument id :=
    repeats_of_behindName
      (fun next => next == some (.mark .colon) || next == some (.mark .equals)) fun _ _ => rfl
  rw [argumentName_eq]
  refine looks.bind fun isNamed again same => ?_
  obtain rfl : again = isNamed := same
  refine .ite (fun _ => ?_) fun _ => repeats_pure rfl
  refine repeats_expectIdent.bind fun named again same => ?_
  obtain ⟨name, _⟩ := named
  obtain ⟨name', _⟩ := again
  obtain rfl : name' = name := same
  exact repeats_advance.bind fun _ _ _ => repeats_pure rfl

/-- The part of an argument behind its name. -/
def argumentRest (start : Span) (name : Option String) : Parser AttributeArgument := do
  let tokens ← argumentTokens
  if tokens.isEmpty then failExpecting "attribute argument"
  return ⟨← spanFrom start, name, argumentValue (← read) tokens⟩

theorem argumentRest_apply (start : Span) (name : Option String) (file : SourceFile)
    {cursor later : Cursor} {tokens : List Token}
    (skipped : skipBy argumentAction file cursor = .ok () later)
    (passed : cursor.remaining = tokens ++ later.remaining) :
    argumentRest start name file cursor =
      if tokens = [] then .error (later.unexpected file "attribute argument") later
      else .ok ⟨later.spanFrom start, name, argumentValue file tokens⟩ later := by
  have taken :
      cursor.remaining.take (cursor.remaining.length - later.remaining.length) = tokens := by
    rw [passed, List.length_append, Nat.add_sub_cancel, List.take_left]
  simp only [argumentRest, argumentTokens_eq, bind_apply, get_apply, skipped, pure_apply, taken]
  cases tokens with
  | nil => simp only [List.isEmpty_nil, if_true, bind_apply, failExpecting_apply]
  | cons token tokens =>
      simp only [List.isEmpty_cons, Bool.false_eq_true, if_false, reduceCtorEq, bind_apply,
        pure_apply, spanFrom_apply, read_apply]

private theorem repeats_argumentRest {start start' : Span} {name : Option String}
    {guard : AttributeArgument → Cursor → Prop} :
    RepeatsBefore guard (argumentRest start name) (argumentRest start' name)
      AttributeArgument.unplaced := by
  have skips : Repeats (skipBy argumentAction) (skipBy argumentAction) id :=
    repeats_skipBy argumentAction
  have skipping (file : SourceFile) (cursor : Cursor) : ∃ later tokens,
      skipBy argumentAction file cursor = .ok () later ∧
        cursor.remaining = tokens ++ later.remaining ∧ cursor.Reaches later := by
    obtain ⟨later, skipped⟩ := skipBy_ok argumentAction file cursor
    have reached := skips.forward.of_ok skipped
    obtain ⟨tokens, passed⟩ := reached.remaining
    exact ⟨later, tokens, skipped, passed.symm, reached⟩
  refine ⟨fun file cursor => ?_, fun file cursor later value run silent _ => ?_⟩
  · obtain ⟨later, tokens, skipped, passed, reached⟩ := skipping file cursor
    rw [argumentRest_apply start name file skipped passed]
    by_cases empty : tokens = []
    · rw [if_pos empty]
      exact ⟨reached, later.isError_unexpected file _⟩
    · rw [if_neg empty]
      exact reached
  · obtain ⟨reached, tokens, skipped, passed, -⟩ := skipping file cursor
    rw [argumentRest_apply start name file skipped passed] at run
    by_cases empty : tokens = []
    · rw [if_pos empty] at run
      cases run
    · rw [if_neg empty] at run
      cases run
      obtain ⟨tokens', passed', again⟩ := skips.rereads file cursor later () skipped silent trivial
      obtain rfl : tokens = tokens' := List.append_cancel_right (passed.symm.trans passed')
      refine ⟨tokens, passed, fun other previous copies rest recorded alike inFront => ?_⟩
      obtain ⟨_, -, skippedAgain⟩ := again other previous copies rest recorded alike inFront
      have copied : copies ≠ [] := by
        rintro rfl
        exact empty (List.eq_nil_of_length_eq_zero alike.length_eq.symm)
      refine ⟨_, ?_, (argumentRest_apply start' name other skippedAgain rfl).trans
        (if_neg copied)⟩
      simp only [AttributeArgument.unplaced, alike.argumentValue_eq]

/-- An argument is read in the same way in front of the same. -/
theorem repeats_attributeArgument {guard : AttributeArgument → Cursor → Prop} :
    RepeatsBefore guard attributeArgument attributeArgument AttributeArgument.unplaced := by
  refine settles_nextSpan.repeats.bind fun start start' _ => ?_
  refine repeats_argumentName.bind fun name again same => ?_
  obtain rfl : again = name := same
  exact repeats_argumentRest

end Arguments

section Lists

variable {α β : Type} {close : Mark} {item : Parser α} {view : α → β}

/-- One round of reading items between commas. -/
def itemRound (close : Mark) (item : Parser α) (found : List α) :
    Parser (ForInStep (List α)) := do
  if ← atMark close then return .done found
  else
    let found := found ++ [← item]
    if ← eat .comma then return .yield found else return .done found

theorem progresses_itemRound (forward : Forward item) :
    Progresses (itemRound close item) := by
  refine progresses_of_usesToGoOn fun found => ?_
  refine .behind (.of_look _ fun file cursor => atMark_apply file cursor close) fun atClose => ?_
  refine .ite (usesToGoOn_done _) (.behind forward fun value => ?_)
  exact usesToGoOn_eat .comma (forward_pure _) (usesToGoOn_done _)

/-- What comes behind an item of a list. -/
private def behindItem (close : Mark) (_ : α) (later : Cursor) : Prop :=
  later.peek? 0 = some (.mark .comma) ∨ later.peek? 0 = some (.mark close)

private theorem repeats_itemRound (repeats : RepeatsBefore (behindItem close) item item view)
    {found found' : List α} (same : found'.map view = found.map view) :
    RepeatsBefore (loopGuard fun _ later => later.peek? 0 = some (.mark close))
      (itemRound close item found) (itemRound close item found') (stepView (List.map view)) := by
  refine (repeats_atMark close).bind fun atClose again isClose => ?_
  obtain rfl : again = atClose := isClose
  refine .ite (fun _ => repeats_pure (congrArg ForInStep.done same)) fun _ => ?_
  refine repeats.bind_before (fun value value' agrees => ?_) ?_
  · have longer : (found' ++ [value']).map view = (found ++ [value]).map view := by
      rw [List.map_append, List.map_append, same, List.map_singleton, List.map_singleton, agrees]
    refine (repeats_eat .comma).bind fun eaten again isComma => ?_
    obtain rfl : again = eaten := isComma
    exact .ite (fun _ => repeats_pure (congrArg ForInStep.yield longer))
      fun _ => repeats_pure (congrArg ForInStep.done longer)
  · intro file value middle final later run ended
    rw [eat_bind_apply] at run
    by_cases comma : middle.peek? 0 = some (.mark .comma)
    · exact .inl comma
    · rw [if_neg comma] at run
      cases run
      exact .inr ended

/-- A list up to its closing mark is read in the same way wherever it stands. -/
private theorem closes_listUpTo (ends : close ≠ .dot)
    (repeats : RepeatsBefore (behindItem close) item item view) :
    Closes (listUpTo close item) (listUpTo close item) (List.map view) := by
  have items : RepeatsBefore (fun _ later => later.peek? 0 = some (.mark close))
      (loop [] (itemRound close item)) (loop [] (itemRound close item)) (List.map view) :=
    repeats_loop (progresses_itemRound repeats.forward)
      (fun found found' same => repeats_itemRound repeats same) rfl
  refine items.bind_closes_before (fun found found' same => ?_) ?_
  · exact (closes_expect close ends).bind_settles fun _ _ _ => settles_pure same
  · intro file found middle final later run
    rw [bind_apply, expect_apply] at run
    by_cases closed : middle.peek? 0 = some (.mark close)
    · exact closed
    · simp [closed] at run

end Lists

section Names

/-- One round of reading a dotted name. -/
def dotRound (found : List String) : Parser (ForInStep (List String)) := do
  if ← eat .dot then
    let (name, _) ← expectIdent
    return .yield (found ++ [name])
  else return .done found

theorem progresses_dotRound : Progresses dotRound :=
  progresses_of_usesToGoOn fun found =>
    usesToGoOn_eat .dot (forward_expectIdent.bind fun _ => forward_pure _) (usesToGoOn_done found)

theorem repeats_dottedName {guard : List String → Cursor → Prop} :
    RepeatsBefore guard dottedName dottedName id := by
  have rounds (found found' : List String) (same : id found' = id found) :
      RepeatsBefore (loopGuard guard) (dotRound found) (dotRound found') (stepView id) := by
    obtain rfl : found' = found := same
    refine (repeats_eat .dot).bind fun eaten again same => ?_
    obtain rfl : again = eaten := same
    refine .ite (fun _ => ?_) fun _ => repeats_pure rfl
    refine repeats_expectIdent.bind fun ⟨name, _⟩ ⟨name', _⟩ same => ?_
    obtain rfl : name' = name := same
    exact repeats_pure rfl
  refine repeats_expectIdent.bind fun ⟨name, _⟩ ⟨name', _⟩ same => ?_
  obtain rfl : name' = name := same
  exact repeats_loop progresses_dotRound rounds rfl

theorem uses_dottedName : Uses dottedName := by
  refine uses_expectIdent.bind fun ⟨name, _⟩ => forward_loop (fun found => ?_) _
  show Forward (dotRound found)
  exact (forward_eat .dot).bind fun _ =>
    .ite (forward_expectIdent.bind fun _ => forward_pure _) (forward_pure _)

end Names

section Applied

/-- Type arguments in front of anything but an opening angle bracket have been
read. -/
private theorem repeats_argumentsIfAny {guard : List TypeExpr → Cursor → Prop}
    (behind : ∀ types later, guard types later → later.peek? 0 ≠ some (.mark .less)) :
    RepeatsBefore guard (argumentsIfAny type) (argumentsIfAny type) fun _ => () := by
  refine ⟨forward_argumentsIfAny forward_type, fun file cursor later types run _ ended => ?_⟩
  rw [argumentsIfAny_apply] at run
  by_cases opened : cursor.peek? 0 = some (.mark .less)
  · rw [if_pos opened] at run
    obtain ⟨tokens, nonempty, passed, rereads⟩ :=
      rereads_typeArguments opened run (behind types later ended)
    refine ⟨tokens, passed, fun other previous copies rest recorded alike inFront => ?_⟩
    obtain ⟨again, -, runAgain⟩ :=
      rereads (fun _ => True) other previous copies rest recorded alike trivial
    have next : (Cursor.mk previous (copies ++ rest) recorded).peek? 0 = some (.mark .less) :=
      (alike.peek?_eq nonempty passed rfl).trans opened
    exact ⟨again, rfl, by rw [argumentsIfAny_apply, if_pos next, runAgain]⟩
  · rw [if_neg opened] at run
    cases run
    refine ⟨[], rfl, fun other previous copies rest recorded alike inFront => ?_⟩
    obtain rfl := alike.of_nil
    exact ⟨[], rfl, by rw [argumentsIfAny_apply, if_neg (inFront.first ▸ opened)]; rfl⟩

/-- Whether a name with a qualifier comes next. -/
def atQualifier : Parser Bool := do
  return (← atIdent) && (← secondIsMark .doubleColon)

private theorem repeats_qualifier :
    Repeats (do if ← atQualifier then advance; advance) (do if ← atQualifier then advance; advance)
      id := by
  have looks : Repeats atQualifier atQualifier id :=
    repeats_of_behindName (fun next => next == some (.mark .doubleColon)) fun _ _ => rfl
  refine looks.bind fun qualified again same => ?_
  obtain rfl : again = qualified := same
  exact .ite (fun _ => repeats_advance.bind fun _ _ _ => repeats_advance) fun _ => repeats_pure rfl

/-- The arguments of an attribute, if it has any. -/
def appliedArguments : Parser (List AttributeArgument) := do
  if ← eat .leftParen then listUpTo .rightParen attributeArgument else pure []

private theorem repeats_appliedArguments {guard : List AttributeArgument → Cursor → Prop} :
    RepeatsBefore guard appliedArguments appliedArguments
      (List.map AttributeArgument.unplaced) := by
  refine (repeats_eat .leftParen).bind fun opened again same => ?_
  obtain rfl : again = opened := same
  refine .ite (fun _ => ?_) fun _ => repeats_pure rfl
  exact (closes_listUpTo (by decide) repeats_attributeArgument).repeats

theorem appliedAttribute_eq :
    appliedAttribute = (do
      let start ← nextSpan
      (do if ← atQualifier then advance; advance)
      let name ← dottedName
      let _ ← argumentsIfAny type
      let arguments ← appliedArguments
      return ⟨← spanFrom start, name, arguments⟩) := by
  simp only [appliedAttribute, atQualifier, argumentsIfAny, appliedArguments, bind_assoc, pure_bind,
    ite_bind]

/-- What follows an attribute of a list is no opening angle bracket, and neither
are its arguments. -/
private theorem next_ne_less {file : SourceFile} {middle later : Cursor}
    {arguments : List AttributeArgument}
    (run : appliedArguments file middle = .ok arguments later)
    (ended : later.peek? 0 ≠ some (.mark .less)) : middle.peek? 0 ≠ some (.mark .less) := by
  intro less
  rw [appliedArguments, eat_bind_apply, if_neg (by simp [less])] at run
  cases run
  exact ended less

theorem repeats_appliedAttribute :
    RepeatsBefore (behindItem .rightBracket) appliedAttribute appliedAttribute
      Attribute.unplaced := by
  let notLess {α : Type} (_ : α) (later : Cursor) : Prop := later.peek? 0 ≠ some (.mark .less)
  have typed : RepeatsBefore notLess (argumentsIfAny type) (argumentsIfAny type) fun _ => () :=
    repeats_argumentsIfAny fun _ _ behind => behind
  rw [appliedAttribute_eq]
  refine settles_nextSpan.repeats.bind fun start start' _ => ?_
  refine repeats_qualifier.bind fun _ _ _ => repeats_dottedName.bind fun name again same => ?_
  obtain rfl : again = name := same
  refine typed.bind_before (fun _ _ _ => ?_) ?_
  · refine repeats_appliedArguments.bind fun arguments arguments' same => ?_
    refine (settles_spanFrom start start').repeats.bind fun _ _ _ => repeats_pure ?_
    rw [Attribute.unplaced, Attribute.unplaced, same]
  · intro file types middle final later run ended
    have notOpened : later.peek? 0 ≠ some (.mark .less) := by
      rcases ended with comma | close
      · simp [comma]
      · simp [close]
    rw [bind_apply] at run
    cases applied : appliedArguments file middle with
    | error diagnostic reached => simp [applied] at run
    | ok arguments reached =>
        simp only [applied, bind_apply, spanFrom_apply, pure_apply] at run
        cases run
        exact next_ne_less applied notOpened

end Applied

section AttributeLists

/-- Whether the target of an attribute list comes next. -/
private def atTarget : Parser Bool := do
  return (← atIdent) && (← secondIsMark .colon)

private theorem repeats_attributeTarget {guard : Option String → Cursor → Prop} :
    RepeatsBefore guard attributeTarget attributeTarget id := by
  have named : attributeTarget = (do
      if ← atTarget then
        let (name, _) ← expectIdent
        advance
        return some name
      else return none) := by
    simp only [attributeTarget, atTarget, bind_assoc, pure_bind]
  have looks : Repeats atTarget atTarget id :=
    repeats_of_behindName (fun next => next == some (.mark .colon)) fun _ _ => rfl
  rw [named]
  refine looks.bind fun targeted again same => ?_
  obtain rfl : again = targeted := same
  refine .ite (fun _ => ?_) fun _ => repeats_pure rfl
  refine repeats_expectIdent.bind fun ⟨name, _⟩ ⟨name', _⟩ same => ?_
  obtain rfl : name' = name := same
  exact repeats_advance.bind fun _ _ _ => repeats_pure rfl

/-- The part of an attribute list behind its opening bracket. -/
private def listRest (start : Span) : Parser AttributeList := do
  let target ← attributeTarget
  let attributes ← listUpTo .rightBracket appliedAttribute
  return ⟨← spanFrom start, target, attributes⟩

private theorem closes_listRest (start start' : Span) :
    Closes (listRest start) (listRest start') AttributeList.unplaced := by
  refine repeats_attributeTarget.bind_closes fun target again same => ?_
  obtain rfl : again = target := same
  refine (closes_listUpTo (by decide) repeats_appliedAttribute).bind_settles
    fun attributes attributes' same => ?_
  refine (settles_spanFrom start start').bind fun _ _ _ => settles_pure ?_
  rw [AttributeList.unplaced, AttributeList.unplaced, same]

/-- An attribute list is read in the same way wherever it stands. -/
theorem closes_attributeList :
    Closes attributeList attributeList AttributeList.unplaced := by
  have opening : Repeats (expect .leftBracket) (expect .leftBracket) id := repeats_expect _
  refine settles_nextSpan.repeats.bind_closes fun start start' _ => ?_
  exact opening.bind_closes fun _ _ _ => closes_listRest start start'

private theorem uses_attributeList : Uses attributeList :=
  .behind settles_nextSpan.forward fun start =>
    (uses_expect .leftBracket).bind fun _ => (closes_listRest start start).forward

/-- One round of reading attribute lists. -/
def listRound (found : List AttributeList) : Parser (ForInStep (List AttributeList)) := do
  if ← atMark .leftBracket then return .yield (found ++ [← attributeList])
  else return .done found

theorem listRound_apply (found : List AttributeList) (file : SourceFile)
    (cursor : Cursor) :
    listRound found file cursor =
      if cursor.peek? 0 = some (.mark .leftBracket) then
        match attributeList file cursor with
        | .ok list later => .ok (.yield (found ++ [list])) later
        | .error diagnostic later => .error diagnostic later
      else .ok (.done found) cursor := by
  simp only [listRound, bind_apply, atMark_apply, beq_iff_eq, ite_run, pure_apply]
  cases attributeList file cursor <;> rfl

private theorem forward_listRound (found : List AttributeList) : Forward (listRound found) :=
  Forward.behind_look (fun file cursor => atMark_apply file cursor _) fun _ =>
    .ite (closes_attributeList.forward.bind fun _ => forward_pure _) (forward_pure _)

theorem progresses_listRound : Progresses listRound := by
  refine progresses_of_usesToGoOn fun found => ?_
  refine .behind (.of_look _ fun file cursor => atMark_apply file cursor _) fun _ => ?_
  exact .ite (uses_attributeList.bind fun _ => forward_pure _).usesToGoOn (usesToGoOn_done found)

private theorem repeats_listRounds {guard : List AttributeList → Cursor → Prop}
    {found found' : List AttributeList}
    (same : found'.map AttributeList.unplaced = found.map AttributeList.unplaced) :
    RepeatsBefore guard (loop found listRound) (loop found' listRound)
      (List.map AttributeList.unplaced) := by
  refine repeats_loop progresses_listRound (fun found found' same => ?_) same
  refine (repeats_atMark .leftBracket).bind fun opened again isOpened => ?_
  obtain rfl : again = opened := isOpened
  refine .ite (fun _ => ?_) fun _ => repeats_pure (congrArg ForInStep.done same)
  refine closes_attributeList.repeats.bind fun list list' agrees => repeats_pure ?_
  simp only [stepView, List.map_append, List.map_singleton, same, agrees]

/-- Attribute lists are read in the same way in front of the same. -/
theorem repeats_attributeLists {guard : List AttributeList → Cursor → Prop} :
    RepeatsBefore guard attributeLists attributeLists (List.map AttributeList.unplaced) :=
  repeats_listRounds rfl

private theorem rereads_listRounds {file : SourceFile} {cursor later : Cursor}
    {found lists : List AttributeList} (run : loop found listRound file cursor = .ok lists later)
    (silent : later.recorded = cursor.recorded) :
    later.peek? 0 ≠ some (.mark .leftBracket) ∧
    ∃ tokens, cursor.remaining = tokens ++ later.remaining ∧
      ∀ found', found'.map AttributeList.unplaced = found.map AttributeList.unplaced →
        Rereads (loop found' listRound) (List.map AttributeList.unplaced)
          (fun there => there.peek? 0 ≠ some (.mark .leftBracket)) file tokens lists := by
  induction length : cursor.remaining.length using Nat.strongRecOn generalizing found cursor with
  | ind size ih =>
  by_cases opened : cursor.peek? 0 = some (.mark .leftBracket)
  · cases first : attributeList file cursor with
    | error diagnostic reached =>
        have round := listRound_apply found file cursor
        rw [if_pos opened, first] at round
        rw [loop_of_error file progresses_listRound round] at run
        cases run
    | ok list reached =>
        have round := listRound_apply found file cursor
        rw [if_pos opened, first] at round
        rw [loop_of_yield file progresses_listRound round] at run
        have behindFirst := (forward_loop forward_listRound _).of_ok run
        obtain ⟨silentFirst, silentRest⟩ :=
          (closes_attributeList.forward.of_ok first).recorded_eq behindFirst silent
        obtain ⟨before, last, passed, -, rereads⟩ :=
          closes_attributeList.rereads file cursor reached list first silentFirst
        have less := progresses_listRound file found _ cursor reached round
        obtain ⟨ends, behind, passedRest, again⟩ :=
          ih reached.remaining.length (by omega) run silentRest rfl
        refine ⟨ends, before ++ [last] ++ behind, ?_, fun found' same => ?_⟩
        · rw [passed, passedRest]
          simp
        intro other previous copies rest recorded alike inFront
        obtain ⟨copiesFirst, copiesRest, rfl, alikeFirst, alikeRest⟩ := alike.of_append
        rw [Token.lastOf_append] at inFront ⊢
        rw [List.append_assoc]
        obtain ⟨list', agrees, runAgain⟩ :=
          rereads other previous copiesFirst (copiesRest ++ rest) recorded alikeFirst trivial
        have next : (Cursor.mk previous (copiesFirst ++ (copiesRest ++ rest)) recorded).peek? 0 =
            some (.mark .leftBracket) :=
          (alikeFirst.peek?_eq (by simp) (passed.trans (List.append_assoc before [last] _).symm)
            rfl).trans opened
        have roundAgain := listRound_apply found' other
          ⟨previous, copiesFirst ++ (copiesRest ++ rest), recorded⟩
        rw [if_pos next, runAgain] at roundAgain
        rw [loop_of_yield other progresses_listRound roundAgain]
        refine again (found' ++ [list']) ?_ other _ copiesRest rest recorded alikeRest inFront
        rw [List.map_append, List.map_append, same, List.map_singleton, List.map_singleton, agrees]
  · have round := listRound_apply found file cursor
    rw [if_neg opened] at round
    rw [loop_of_done file progresses_listRound round] at run
    cases run
    refine ⟨opened, [], rfl, fun found' same other previous copies rest recorded alike ends => ?_⟩
    obtain rfl := alike.of_nil
    have roundAgain := (listRound_apply found' other ⟨previous, rest, recorded⟩).trans (if_neg ends)
    exact ⟨found', same, loop_of_done other progresses_listRound roundAgain⟩

/-- Attribute lists are read in the same way in front of anything that is no
further list. -/
theorem rereads_attributeLists {file : SourceFile} {cursor later : Cursor}
    {lists : List AttributeList} (run : attributeLists file cursor = .ok lists later)
    (silent : later.recorded = cursor.recorded) :
    later.peek? 0 ≠ some (.mark .leftBracket) ∧
    ∃ tokens, cursor.remaining = tokens ++ later.remaining ∧
      Rereads attributeLists (List.map AttributeList.unplaced)
        (fun there => there.peek? 0 ≠ some (.mark .leftBracket)) file tokens lists := by
  obtain ⟨ends, tokens, passed, rereads⟩ := rereads_listRounds run silent
  exact ⟨ends, tokens, passed, rereads [] rfl⟩

/-- In front of anything but an opening bracket there are no attribute lists. -/
theorem attributeLists_of_none (file : SourceFile) {cursor : Cursor}
    (next : cursor.peek? 0 ≠ some (.mark .leftBracket)) :
    attributeLists file cursor = .ok [] cursor := by
  refine loop_of_done file progresses_listRound ?_
  rw [listRound_apply, if_neg next]

/-- Whatever is read ends with a mark. -/
private def EndsAt {α : Type} (mark : Mark) (parser : Parser α) : Prop :=
  ∀ (file : SourceFile) (cursor later : Cursor) (value : α), parser file cursor = .ok value later →
    later.previous.map (·.kind) = some (.mark mark)

private theorem EndsAt.behind {α β : Type} {mark : Mark} {parser : Parser α}
    {next : α → Parser β} (ends : ∀ value, EndsAt mark (next value)) :
    EndsAt mark (parser >>= next) := by
  intro file cursor later final run
  rw [bind_apply] at run
  cases first : parser file cursor with
  | error diagnostic middle => simp [first] at run
  | ok value middle =>
      simp only [first] at run
      exact ends value file middle later final run

private theorem EndsAt.bind_look {α β : Type} {mark : Mark} {parser : Parser α}
    {next : α → Parser β} (ends : EndsAt mark parser)
    (looks : ∀ value file cursor, ∃ result, next value file cursor = .ok result cursor) :
    EndsAt mark (parser >>= next) := by
  intro file cursor later final run
  rw [bind_apply] at run
  cases first : parser file cursor with
  | error diagnostic middle => simp [first] at run
  | ok value middle =>
      simp only [first] at run
      obtain ⟨result, looked⟩ := looks value file middle
      cases looked.symm.trans run
      exact ends file cursor later value first

private theorem endsAt_expect (mark : Mark) : EndsAt mark (expect mark) := by
  intro file cursor later value run
  rw [expect_apply] at run
  by_cases comes : cursor.peek? 0 = some (.mark mark)
  · rw [if_pos comes] at run
    cases run
    obtain ⟨previous, remaining, recorded⟩ := cursor
    cases remaining with
    | nil => cases comes
    | cons token rest => exact comes
  · rw [if_neg comes] at run
    cases run

private theorem endsAt_attributeList : EndsAt .rightBracket attributeList := by
  refine .behind fun start => .behind fun _ => .behind fun target => .bind_look ?_ fun _ _ _ => ?_
  · exact .behind fun found => (endsAt_expect _).bind_look fun _ _ _ => ⟨_, rfl⟩
  · exact ⟨_, by rw [bind_apply, spanFrom_apply]; rfl⟩

/-- Attribute lists begin with a bracket and end with one. -/
theorem brackets_of_attributeLists {file : SourceFile} {cursor later : Cursor}
    {lists : List AttributeList} (run : attributeLists file cursor = .ok lists later)
    (some : lists ≠ []) :
    cursor.peek? 0 = .some (.mark .leftBracket) ∧
      later.previous.map (·.kind) = .some (.mark .rightBracket) := by
  refine ⟨Decidable.byContradiction fun other => ?_, ?_⟩
  · rw [attributeLists_of_none file other] at run
    cases run
    exact some rfl
  · let ends (found : List AttributeList) (reached : Cursor) : Prop :=
      found ≠ [] → reached.previous.map (·.kind) = .some (.mark .rightBracket)
    refine @loop_induction _ _ file progresses_listRound ends ends ?_ _ _ _ _
      (fun nothing => absurd rfl nothing) run some
    intro found here behind outcome kept round
    rw [listRound_apply] at round
    split at round
    · cases read : attributeList file here with
      | error diagnostic reached => simp [read] at round
      | ok list reached =>
          simp only [read] at round
          cases round
          exact fun _ => endsAt_attributeList file here _ list read
    · cases round
      exact kept

end AttributeLists

end Parser

end ErrorAccessors
