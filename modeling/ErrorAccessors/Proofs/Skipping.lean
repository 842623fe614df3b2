/-
# Skipping

Skipping never fails, always moves on where something is left, and skips an
equal stretch of tokens in the same way wherever it stands.  For a stretch that
ends with its own closing delimiter or semicolon nothing has to be known about
what follows; otherwise it has to be followed by what stopped the skipping.
What has been skipped is a row of single tokens and delimited parts, whatever they hold.
-/

import ErrorAccessors.Parser.Attribute
import ErrorAccessors.Proofs.Rereading

namespace ErrorAccessors.Parser

section Balanced

/-- The closing delimiter is found by the kinds of the tokens up to it. -/
theorem closing?_eq_some {depth : Nat} {tokens rest : List Token} {last : Token}
    (found : closing? depth tokens = some (last, rest)) :
    ∃ before, tokens = before ++ last :: rest ∧ last.kind.closes = true ∧
      ∀ (copies others : List Token) (copy : Token),
        copies.map (·.kind) = before.map (·.kind) → copy.kind = last.kind →
          closing? depth (copies ++ copy :: others) = some (copy, others) := by
  induction tokens generalizing depth with
  | nil => cases found
  | cons token tail ih =>
      -- one token further on, at whatever depth the token leads to
      have further {depth' : Nat} (found' : closing? depth' tail = some (last, rest))
          (step : ∀ (copy : Token) (others : List Token), copy.kind = token.kind →
            closing? depth (copy :: others) = closing? depth' others) :
          ∃ before, token :: tail = before ++ last :: rest ∧ last.kind.closes = true ∧
            ∀ (copies others : List Token) (copy : Token),
              copies.map (·.kind) = before.map (·.kind) → copy.kind = last.kind →
                closing? depth (copies ++ copy :: others) = some (copy, others) := by
        obtain ⟨before, rfl, closes, again⟩ := ih found'
        refine ⟨token :: before, rfl, closes, fun copies others copy kinds kind => ?_⟩
        obtain ⟨first, copies, rfl, firstKind, kinds⟩ := List.map_eq_cons_iff.mp kinds
        rw [List.cons_append, step first _ firstKind]
        exact again copies others copy kinds kind
      rw [closing?] at found
      by_cases opens : token.kind.opens = true
      · rw [if_pos opens] at found
        exact further found fun copy others kind => by rw [closing?, kind, if_pos opens]
      rw [if_neg opens] at found
      by_cases closes : token.kind.closes = true
      · rw [if_pos closes] at found
        by_cases shallow : depth ≤ 1
        · rw [if_pos shallow] at found
          cases found
          refine ⟨[], rfl, closes, fun copies others copy kinds kind => ?_⟩
          obtain rfl := List.map_eq_nil_iff.mp kinds
          rw [List.nil_append, closing?, kind, if_neg opens, if_pos closes, if_pos shallow]
        · rw [if_neg shallow] at found
          exact further found fun copy others kind => by
            rw [closing?, kind, if_neg opens, if_pos closes, if_neg shallow]
      · rw [if_neg closes] at found
        exact further found fun copy others kind => by
          rw [closing?, kind, if_neg opens, if_neg closes]

variable (file : SourceFile) (cursor : Cursor)

theorem skipBalanced_apply :
    skipBalanced file cursor =
      match closing? 0 cursor.remaining with
      | some (token, rest) => .ok () ⟨some token, rest, cursor.recorded⟩
      | none => .ok () ⟨cursor.remaining.getLast?.or cursor.previous, [], cursor.recorded ++
          [.error .missingDelimiter "Unclosed delimiter" (cursor.nextSpan file)]⟩ := by
  simp only [skipBalanced, bind_apply, nextSpan_apply, get_apply]
  cases closing? 0 cursor.remaining with
  | none => rfl
  | some found => rfl

/-- Skipping a delimited part never fails and uses up a token where there is
one. -/
theorem skipBalanced_ok :
    ∃ later, skipBalanced file cursor = .ok () later ∧ cursor.Reaches later ∧
      (cursor.remaining ≠ [] → later.remaining.length < cursor.remaining.length) := by
  rw [skipBalanced_apply]
  cases found : closing? 0 cursor.remaining with
  | none =>
      refine ⟨_, rfl, ⟨⟨cursor.remaining, (List.append_nil _).symm, ?_⟩, [_], rfl, ?_⟩, ?_⟩
      · exact (Token.lastOf_eq _ _).symm
      · intro diagnostic member
        rw [List.mem_singleton.mp member]
        rfl
      · exact fun nonempty => List.length_pos_iff.mpr nonempty
  | some result =>
      obtain ⟨token, rest⟩ := result
      obtain ⟨before, tokens, -, -⟩ := closing?_eq_some found
      refine ⟨_, rfl, .of_passed (before ++ [token]) ?_ ?_ rfl, fun _ => ?_⟩
      · rw [tokens, List.append_assoc]
        rfl
      · rw [Token.lastOf_append]
        rfl
      · rw [tokens]
        simp only [List.length_append, List.length_cons]
        omega

theorem forward_skipBalanced : Forward skipBalanced := by
  intro file cursor
  obtain ⟨later, run, reached, -⟩ := skipBalanced_ok file cursor
  rw [run]
  exact reached

/-- A closing delimiter is nothing behind which one looks. -/
private theorem looksFurther_of_closes {kind : TokenKind} (closes : kind.closes = true) :
    kind.looksFurther = false := by
  cases kind with
  | mark mark => cases mark <;> first | rfl | cases closes
  | _ => cases closes

/-- A delimited part is skipped wherever it stands. -/
theorem closes_skipBalanced : Closes skipBalanced skipBalanced id := by
  refine ⟨forward_skipBalanced, fun file cursor later _ run silent => ?_⟩
  rw [skipBalanced_apply] at run
  cases found : closing? 0 cursor.remaining with
  | none =>
      rw [found] at run
      cases run
      simp at silent
  | some result =>
      obtain ⟨token, rest⟩ := result
      rw [found] at run
      cases run
      obtain ⟨before, tokens, closes, again⟩ := closing?_eq_some found
      refine ⟨before, token, tokens, looksFurther_of_closes closes, ?_⟩
      intro other previous copies rest recorded alike _
      obtain ⟨copiesBefore, last, rfl, alikeBefore, alikeLast⟩ := alike.of_append
      obtain ⟨copy, none, rfl, kind, empty⟩ := alikeLast.of_cons
      obtain rfl := empty.of_nil
      refine ⟨(), rfl, ?_⟩
      rw [skipBalanced_apply, List.append_assoc, List.singleton_append,
        again copiesBefore rest copy alikeBefore.kinds kind, Token.lastOf_append]
      rfl

end Balanced

/-- What skipping does with the next token. -/
inductive SkipAction where
  /-- Stop in front of it. -/
  | stop
  /-- Step over it and stop. -/
  | stepAndStop
  /-- Step over it and go on. -/
  | step
  /-- Skip to the delimiter that closes it and go on. -/
  | whole
  /-- Skip to the delimiter that closes it, and go on only in front of an equals
  sign. -/
  | block
deriving DecidableEq

/-- One round of skipping. -/
def skipRound (action : TokenKind → SkipAction) : Unit → Parser (ForInStep Unit) := fun _ => do
  match ← peek with
  | none => return .done ()
  | some kind =>
    match action kind with
    | .stop => return .done ()
    | .stepAndStop =>
      advance
      return .done ()
    | .step =>
      advance
      return .yield ()
    | .whole =>
      skipBalanced
      return .yield ()
    | .block =>
      skipBalanced
      if ← atMark .equals then return .yield () else return .done ()

/-- Skip token by token, or delimited part by delimited part. -/
def skipBy (action : TokenKind → SkipAction) : Parser Unit :=
  loop () (skipRound action)

section Instances

/-- The tokens at which `skipUntil` stops. -/
def untilAction (marks : List Mark) : TokenKind → SkipAction
  | .mark mark =>
    if marks.contains mark then .stop
    else if mark = .leftParen ∨ mark = .leftBracket then .whole else .step
  | _ => .step

/-- The tokens at which a statement ends. -/
def statementAction : TokenKind → SkipAction
  | .mark .rightBrace => .stop
  | .mark .semicolon => .stepAndStop
  | kind => if kind.opens then .whole else .step

/-- The tokens at which a member ends. -/
def memberAction : TokenKind → SkipAction
  | .mark .rightBrace => .stop
  | .mark .semicolon => .stepAndStop
  | .mark .leftBrace => .block
  | kind => if kind.opens then .whole else .step

/-- The tokens at which an attribute argument ends. -/
def argumentAction (kind : TokenKind) : SkipAction :=
  if argumentEnds.any fun mark => kind == .mark mark then .stop
  else if kind.opens then .whole else .step

theorem skipUntil_eq (marks : List Mark) : skipUntil marks = skipBy (untilAction marks) := by
  refine congrArg (loop ()) (funext fun _ => bind_congr fun next => ?_)
  cases next with
  | none => rfl
  | some kind =>
      cases kind with
      | mark mark =>
          simp only [untilAction]
          by_cases stops : marks.contains mark = true
          · simp only [if_pos stops]
          · simp only [if_neg stops]
            by_cases opens : mark = .leftParen ∨ mark = .leftBracket
            · simp only [if_pos opens]
            · simp only [if_neg opens]
      | _ => rfl

theorem skipStatement_eq : skipStatement = skipBy statementAction := by
  refine congrArg (loop ()) (funext fun _ => bind_congr fun next => ?_)
  cases next with
  | none => rfl
  | some kind =>
      cases kind with
      | mark mark => cases mark <;> rfl
      | _ => rfl

theorem skipMember_eq : skipMember = skipBy memberAction := by
  refine congrArg (loop ()) (funext fun _ => bind_congr fun next => ?_)
  cases next with
  | none => rfl
  | some kind =>
      cases kind with
      | mark mark => cases mark <;> rfl
      | _ => rfl

theorem argumentTokens_eq :
    argumentTokens = (do
      let before := (← get).remaining
      skipBy argumentAction
      let after := (← get).remaining
      return before.take (before.length - after.length)) := by
  refine bind_congr fun before => congrArg (· >>= _) ?_
  refine congrArg (loop ()) (funext fun _ => bind_congr fun next => ?_)
  cases next with
  | none => rfl
  | some kind =>
      simp only [argumentAction]
      by_cases stops : (argumentEnds.any fun mark => kind == .mark mark) = true
      · simp only [if_pos stops]
      · simp only [if_neg stops]
        by_cases opens : kind.opens = true
        · simp only [if_pos opens]
        · simp only [if_neg opens]

end Instances

section Rounds

variable (action : TokenKind → SkipAction) (file : SourceFile) (cursor : Cursor)

theorem skipRound_apply :
    skipRound action () file cursor =
      match cursor.peek? 0 with
      | none => .ok (.done ()) cursor
      | some kind =>
        match action kind with
        | .stop => .ok (.done ()) cursor
        | .stepAndStop => .ok (.done ()) cursor.advance
        | .step => .ok (.yield ()) cursor.advance
        | .whole =>
          match skipBalanced file cursor with
          | .ok _ later => .ok (.yield ()) later
          | .error diagnostic later => .error diagnostic later
        | .block =>
          match skipBalanced file cursor with
          | .ok _ later =>
            if later.peek? 0 = some (.mark .equals) then .ok (.yield ()) later
            else .ok (.done ()) later
          | .error diagnostic later => .error diagnostic later := by
  simp only [skipRound, bind_apply, peek_apply]
  cases cursor.peek? 0 with
  | none => rfl
  | some kind =>
      simp only []
      cases action kind with
      | stop => rfl
      | stepAndStop => rfl
      | step => rfl
      | whole =>
          simp only [bind_apply]
          cases skipBalanced file cursor with
          | ok _ later => rfl
          | error diagnostic later => rfl
      | block =>
          simp only [bind_apply]
          cases skipBalanced file cursor with
          | ok _ later =>
              simp only [atMark_apply, beq_iff_eq, ite_run, pure_apply]
          | error diagnostic later => rfl

/-- A round of skipping never fails. -/
theorem skipRound_ok : ∃ outcome later, skipRound action () file cursor = .ok outcome later ∧
    cursor.Reaches later ∧
    (outcome = .yield () → later.remaining.length < cursor.remaining.length) := by
  rw [skipRound_apply]
  cases next : cursor.peek? 0 with
  | none => exact ⟨_, _, rfl, .refl cursor, fun h => by cases h⟩
  | some kind =>
      have passed := Cursor.length_advance next
      have nonempty : cursor.remaining ≠ [] := by
        intro empty
        rw [empty] at passed
        simp at passed
      obtain ⟨later, run, reached, less⟩ := skipBalanced_ok file cursor
      simp only []
      cases action kind with
      | stop => exact ⟨_, _, rfl, .refl cursor, fun h => by cases h⟩
      | stepAndStop => exact ⟨_, _, rfl, cursor.reaches_advance, fun h => by cases h⟩
      | step => exact ⟨_, _, rfl, cursor.reaches_advance, fun _ => by omega⟩
      | whole =>
          rw [run]
          exact ⟨_, _, rfl, reached, fun _ => less nonempty⟩
      | block =>
          rw [run]
          simp only []
          split
          · exact ⟨_, _, rfl, reached, fun _ => less nonempty⟩
          · exact ⟨_, _, rfl, reached, fun h => by cases h⟩

end Rounds

theorem forward_skipRound (action : TokenKind → SkipAction) (state : Unit) :
    Forward (skipRound action state) := by
  intro file cursor
  obtain ⟨outcome, later, run, reached, -⟩ := skipRound_ok action file cursor
  rw [run]
  exact reached

theorem progresses_skipRound (action : TokenKind → SkipAction) :
    Progresses (skipRound action) := by
  intro file state next cursor later round
  obtain ⟨outcome, reached, run, -, less⟩ := skipRound_ok action file cursor
  cases round.symm.trans run
  exact less rfl

theorem forward_skipBy (action : TokenKind → SkipAction) : Forward (skipBy action) :=
  forward_loop (forward_skipRound action) ()

/-- Skipping never fails. -/
theorem skipBy_ok (action : TokenKind → SkipAction) (file : SourceFile) (cursor : Cursor) :
    ∃ later, skipBy action file cursor = .ok () later := by
  have round (state : Unit) (cursor : Cursor) :
      ∃ outcome later, skipRound action state file cursor = .ok outcome later := by
    obtain ⟨outcome, later, run, -⟩ := skipRound_ok action file cursor
    exact ⟨outcome, later, run⟩
  obtain ⟨_, later, run⟩ := loop_ok file (progresses_skipRound action) round () cursor
  exact ⟨later, run⟩

private theorem repeats_skipRound (action : TokenKind → SkipAction)
    {guard : ForInStep Unit → Cursor → Prop} :
    RepeatsBefore guard (skipRound action ()) (skipRound action ()) (stepView id) := by
  refine repeats_peek.bind fun next again same => ?_
  obtain rfl : again = next := same
  cases again with
  | none => exact repeats_pure rfl
  | some kind =>
      have skipped : Repeats skipBalanced skipBalanced id := closes_skipBalanced.repeats
      simp only []
      cases action kind with
      | stop => exact repeats_pure rfl
      | stepAndStop => exact repeats_advance.bind fun _ _ _ => repeats_pure rfl
      | step => exact repeats_advance.bind fun _ _ _ => repeats_pure rfl
      | whole => exact skipped.bind fun _ _ _ => repeats_pure rfl
      | block =>
          refine skipped.bind fun _ _ _ =>
            (repeats_atMark .equals).bind fun isEquals again same => ?_
          obtain rfl : again = isEquals := same
          exact .ite (fun _ => repeats_pure rfl) fun _ => repeats_pure rfl

/-- Skipping goes the same way in front of the same token. -/
theorem repeats_skipBy (action : TokenKind → SkipAction) {guard : Unit → Cursor → Prop} :
    RepeatsBefore guard (skipBy action) (skipBy action) id :=
  repeats_loop (progresses_skipRound action) (fun _ _ _ => repeats_skipRound action) rfl

theorem repeats_skipMember {guard : Unit → Cursor → Prop} :
    RepeatsBefore guard skipMember skipMember id := by
  rw [skipMember_eq]
  exact repeats_skipBy memberAction

section Stretches

/-- Tokens from an opening delimiter through the one that closes it. -/
structure Enclosed (mark : Mark) (tokens : List Token) : Prop where
  opens : tokens.head?.map (·.kind) = some (.mark mark)
  closed : ∃ last, closing? 0 tokens = some (last, [])

variable {tokens rest : List Token} (file : SourceFile) (previous : Option Token)
  (recorded : List Diagnostic)

theorem skipBalanced_of_closed {last : Token} (closed : closing? 0 tokens = some (last, [])) :
    skipBalanced file ⟨previous, tokens ++ rest, recorded⟩ =
      .ok () ⟨Token.lastOf previous tokens, rest, recorded⟩ := by
  obtain ⟨before, rfl, -, again⟩ := closing?_eq_some closed
  rw [skipBalanced_apply, List.append_assoc, List.singleton_append, again before rest last rfl rfl,
    Token.lastOf_append]
  rfl

/-- Tokens that are skipped whatever comes behind them. -/
inductive SkippedBy (action : TokenKind → SkipAction) : List Token → Prop
  | nil : SkippedBy action []
  | step {token : Token} {others : List Token} (does : action token.kind = .step)
      (behind : SkippedBy action others) : SkippedBy action (token :: others)
  | whole {mark : Mark} {group others : List Token} (does : action (.mark mark) = .whole)
      (enclosed : Enclosed mark group) (behind : SkippedBy action others) :
      SkippedBy action (group ++ others)

theorem SkippedBy.append {action : TokenKind → SkipAction} {first second : List Token}
    (before : SkippedBy action first)
    (behind : SkippedBy action second) : SkippedBy action (first ++ second) := by
  induction before with
  | nil => exact behind
  | step does _ ih => exact .step does ih
  | whole does enclosed _ ih =>
      rw [List.append_assoc]
      exact .whole does enclosed ih

theorem skipBy_of_skipped {action : TokenKind → SkipAction} (skipped : SkippedBy action tokens) :
    skipBy action file ⟨previous, tokens ++ rest, recorded⟩ =
      skipBy action file ⟨Token.lastOf previous tokens, rest, recorded⟩ := by
  induction skipped generalizing previous with
  | nil => rfl
  | @step token others does behind ih =>
      refine (loop_of_yield file (progresses_skipRound action) ?_).trans (ih (some token))
      rw [skipRound_apply, List.cons_append, Cursor.peek?_zero_cons]
      simp only [does, Cursor.advance_cons]
  | @whole mark group others does enclosed behind ih =>
      obtain ⟨last, closed⟩ := enclosed.closed
      rw [Token.lastOf_append, List.append_assoc]
      refine (loop_of_yield file (progresses_skipRound action) ?_).trans
        (ih (Token.lastOf previous group))
      rw [skipRound_apply, Cursor.peek?_of_head enclosed.opens]
      simp only [does, skipBalanced_of_closed file previous recorded closed]

/-- Skipping stops at once in front of a token that ends it. -/
theorem skipBy_of_stop {action : TokenKind → SkipAction} {cursor : Cursor} {kind : TokenKind}
    (next : cursor.peek? 0 = some kind) (does : action kind = .stop) :
    skipBy action file cursor = .ok () cursor := by
  refine loop_of_done file (progresses_skipRound action) ?_
  rw [skipRound_apply, next]
  simp only [does]

/-- Skipping stops behind a token that belongs to what is skipped. -/
theorem skipBy_of_stepAndStop {action : TokenKind → SkipAction} {cursor : Cursor} {kind : TokenKind}
    (next : cursor.peek? 0 = some kind) (does : action kind = .stepAndStop) :
    skipBy action file cursor = .ok () cursor.advance := by
  refine loop_of_done file (progresses_skipRound action) ?_
  rw [skipRound_apply, next]
  simp only [does]

end Stretches

section Kinds

variable {action : TokenKind → SkipAction} {mark : Mark} {tokens copies : List Token}

theorem Enclosed.of_kinds (enclosed : Enclosed mark tokens)
    (kinds : copies.map (·.kind) = tokens.map (·.kind)) : Enclosed mark copies := by
  obtain ⟨opens, last, closed⟩ := enclosed
  obtain ⟨before, rfl, -, again⟩ := closing?_eq_some closed
  obtain ⟨front, rear, rfl, frontKinds, rearKinds⟩ :=
    List.map_eq_append_iff.mp (kinds.trans (List.map_append ..))
  obtain ⟨copy, rfl, kind⟩ := List.map_eq_singleton_iff.mp rearKinds
  refine ⟨?_, copy, again front [] copy frontKinds kind⟩
  rw [← List.head?_map, kinds, List.head?_map, opens]

/-- Whether tokens are skipped is seen from their kinds. -/
theorem SkippedBy.of_kinds (skipped : SkippedBy action tokens)
    (kinds : copies.map (·.kind) = tokens.map (·.kind)) : SkippedBy action copies := by
  induction skipped generalizing copies with
  | nil =>
      obtain rfl : copies = [] := by simpa using kinds
      exact .nil
  | step does _ ih =>
      obtain ⟨copy, behind, rfl, kind, behindKinds⟩ := List.map_eq_cons_iff.mp kinds
      exact .step (kind ▸ does) (ih behindKinds)
  | whole does enclosed _ ih =>
      obtain ⟨group, behind, rfl, groupKinds, behindKinds⟩ :=
        List.map_eq_append_iff.mp (kinds.trans (List.map_append ..))
      exact .whole does (enclosed.of_kinds groupKinds) (ih behindKinds)

/-- A way of skipping that skips only delimited parts as a whole. -/
structure SkipsGroups (action : TokenKind → SkipAction) : Prop where
  whole : ∀ kind, action kind = .whole → kind.opens = true
  block : ∀ kind, action kind ≠ .block

theorem skipsGroups_statementAction : SkipsGroups statementAction := by
  refine ⟨fun kind whole => ?_, fun kind block => ?_⟩ <;> cases kind with
  | mark mark => cases mark <;> first | rfl | cases whole | cases block
  | _ => first | cases whole | cases block

/-- A delimited part that is skipped. -/
theorem enclosed_of_skipBalanced {file : SourceFile} {cursor later : Cursor}
    {kind : TokenKind} (next : cursor.peek? 0 = some kind) (opens : kind.opens = true)
    (run : skipBalanced file cursor = .ok () later) (silent : later.recorded = cursor.recorded) :
    ∃ mark group, kind = .mark mark ∧ cursor.remaining = group ++ later.remaining ∧
      Enclosed mark group := by
  obtain ⟨mark, rfl⟩ : ∃ mark, kind = .mark mark := by
    cases kind with
    | mark mark => exact ⟨mark, rfl⟩
    | _ => cases opens
  rw [skipBalanced_apply] at run
  cases found : closing? 0 cursor.remaining with
  | none =>
      rw [found] at run
      cases run
      simp at silent
  | some result =>
      obtain ⟨last, rest⟩ := result
      rw [found] at run
      cases run
      obtain ⟨before, tokens, closes, again⟩ := closing?_eq_some found
      refine ⟨mark, before ++ [last], rfl, by simp [tokens], ?_, last, again before [] last rfl rfl⟩
      rw [Cursor.peek?, tokens, ← List.head?_eq_getElem?] at next
      rw [← next]
      simp [List.head?_append]

/-- What has been skipped up to a token that stops it, or through one that belongs to it. -/
theorem skipped_of_skipBy {file : SourceFile} {cursor later : Cursor} (skips : SkipsGroups action)
    (run : skipBy action file cursor = .ok () later) (silent : later.recorded = cursor.recorded) :
    ∃ tokens ending, cursor.remaining = tokens ++ (ending ++ later.remaining) ∧
      SkippedBy action tokens ∧
      ((ending = [] ∧ ∀ kind, later.peek? 0 = some kind → action kind = .stop) ∨
        ∃ last, ending = [last] ∧ action last.kind = .stepAndStop) := by
  let keeps (_ : Unit) (reached : Cursor) : Prop := cursor.Reaches reached ∧
    (reached.recorded = cursor.recorded → ∃ tokens, cursor.remaining = tokens ++ reached.remaining ∧
      SkippedBy action tokens)
  let ends (_ : Unit) (reached : Cursor) : Prop := reached.recorded = cursor.recorded →
    ∃ tokens ending, cursor.remaining = tokens ++ (ending ++ reached.remaining) ∧
      SkippedBy action tokens ∧
      ((ending = [] ∧ ∀ kind, reached.peek? 0 = some kind → action kind = .stop) ∨
        ∃ last, ending = [last] ∧ action last.kind = .stepAndStop)
  refine @loop_induction _ _ file (progresses_skipRound action) keeps ends ?_ _ _ _ _
    ⟨.refl cursor, fun _ => ⟨[], rfl, .nil⟩⟩ run silent
  intro state here behind outcome ⟨reached, kept⟩ round
  rw [skipRound_apply] at round
  cases next : here.peek? 0 with
  | none =>
      simp only [next] at round
      cases round
      intro silent
      obtain ⟨tokens, passed, skipped⟩ := kept silent
      refine ⟨tokens, [], passed, skipped, .inl ⟨rfl, fun kind isNext => ?_⟩⟩
      rw [next] at isNext
      cases isNext
  | some kind =>
      obtain ⟨token, isKind, remaining⟩ := Cursor.remaining_eq_cons next
      simp only [next] at round
      cases does : action kind with
      | block => exact absurd does (skips.block kind)
      | stop =>
          simp only [does] at round
          cases round
          intro silent
          obtain ⟨tokens, passed, skipped⟩ := kept silent
          refine ⟨tokens, [], passed, skipped, .inl ⟨rfl, fun other isNext => ?_⟩⟩
          obtain rfl := Option.some.inj (next.symm.trans isNext)
          exact does
      | stepAndStop =>
          simp only [does] at round
          cases round
          intro silent
          obtain ⟨tokens, passed, skipped⟩ :=
            kept (reached.recorded_eq here.reaches_advance silent).1
          refine ⟨tokens, [token], ?_, skipped, .inr ⟨token, rfl, isKind ▸ does⟩⟩
          rw [passed, remaining]
          rfl
      | step =>
          simp only [does] at round
          cases round
          refine ⟨reached.trans here.reaches_advance, fun silent => ?_⟩
          obtain ⟨tokens, passed, skipped⟩ :=
            kept (reached.recorded_eq here.reaches_advance silent).1
          refine ⟨tokens ++ [token], ?_, skipped.append (.step (isKind ▸ does) .nil)⟩
          rw [passed, remaining, List.append_assoc]
          rfl
      | whole =>
          obtain ⟨middle, skip, onward, -⟩ := skipBalanced_ok file here
          simp only [does, skip] at round
          cases round
          refine ⟨reached.trans onward, fun silent => ?_⟩
          obtain ⟨before, silentHere⟩ := reached.recorded_eq onward silent
          obtain ⟨tokens, passed, skipped⟩ := kept before
          obtain ⟨mark, group, rfl, passedGroup, enclosed⟩ :=
            enclosed_of_skipBalanced next (skips.whole kind does) skip silentHere
          refine ⟨tokens ++ group, by rw [passed, passedGroup, List.append_assoc],
            skipped.append ?_⟩
          have whole := SkippedBy.whole does enclosed .nil
          rwa [List.append_nil] at whole

end Kinds

end ErrorAccessors.Parser
