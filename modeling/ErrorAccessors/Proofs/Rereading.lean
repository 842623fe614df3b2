/-
# Reading the same tokens elsewhere

A stretch of tokens that was read once is read again with the same result
wherever an equal stretch stands: in another file, behind other tokens and in
front of others, as long as these cannot continue it.  Two stretches are equal
here if their kinds are, and if the text between any two of their tokens is,
because the text of an attribute argument is kept as it was written.

Only readings that record nothing are compared.  A diagnostic quotes places and
the next token, and a file with a diagnostic has no outline anyway.
-/

import ErrorAccessors.Proofs.TypeReading
import ErrorAccessors.Proofs.SpelledTypes

namespace ErrorAccessors

/-- Two stretches of tokens of two files that say the same. -/
structure Token.Alike (file : SourceFile) (tokens : List Token) (other : SourceFile)
    (copies : List Token) : Prop where
  kinds : copies.map (·.kind) = tokens.map (·.kind)
  slices : ∀ first ∈ tokens.zip copies, ∀ last ∈ tokens.zip copies,
    other.slice? (first.2.span.merge last.2.span) = file.slice? (first.1.span.merge last.1.span)

namespace Token.Alike

variable {file other : SourceFile} {tokens copies : List Token}

/-- Every stretch says the same as itself. -/
theorem refl (file : SourceFile) (tokens : List Token) : Alike file tokens file tokens := by
  refine ⟨rfl, fun first inFirst last inLast => ?_⟩
  have same {pair : Token × Token} (member : pair ∈ tokens.zip tokens) : pair.1 = pair.2 := by
    rw [List.zip, List.zipWith_self] at member
    obtain ⟨token, -, rfl⟩ := List.mem_map.mp member
    rfl
  rw [same inFirst, same inLast]

theorem length_eq (alike : Alike file tokens other copies) : copies.length = tokens.length := by
  simpa using congrArg List.length alike.kinds

/-- A stretch that says the same as two together is two such stretches. -/
theorem of_append {first second : List Token}
    (alike : Alike file (first ++ second) other copies) :
    ∃ copiesFirst copiesSecond, copies = copiesFirst ++ copiesSecond ∧
      Alike file first other copiesFirst ∧ Alike file second other copiesSecond := by
  obtain ⟨copiesFirst, copiesSecond, rfl, kindsFirst, kindsSecond⟩ :=
    List.map_eq_append_iff.mp (alike.kinds.trans (List.map_append ..))
  have lengths : first.length = copiesFirst.length := by
    simpa using congrArg List.length kindsFirst.symm
  have zipped : (first ++ second).zip (copiesFirst ++ copiesSecond) =
      first.zip copiesFirst ++ second.zip copiesSecond := List.zip_append lengths
  refine ⟨copiesFirst, copiesSecond, rfl, ⟨kindsFirst, ?_⟩, ⟨kindsSecond, ?_⟩⟩
  · exact fun one inOne two inTwo => alike.slices one (zipped ▸ List.mem_append_left _ inOne) two
      (zipped ▸ List.mem_append_left _ inTwo)
  · exact fun one inOne two inTwo => alike.slices one (zipped ▸ List.mem_append_right _ inOne) two
      (zipped ▸ List.mem_append_right _ inTwo)

/-- What says the same as a token and others is such a token and others. -/
theorem of_cons {token : Token} {rest : List Token}
    (alike : Alike file (token :: rest) other copies) :
    ∃ copy copiesRest, copies = copy :: copiesRest ∧ copy.kind = token.kind ∧
      Alike file rest other copiesRest := by
  have split : Alike file ([token] ++ rest) other copies := alike
  obtain ⟨first, second, rfl, one, others⟩ := split.of_append
  obtain ⟨copy, none, rfl, kind, rest⟩ := List.map_eq_cons_iff.mp one.kinds
  obtain rfl := List.map_eq_nil_iff.mp rest
  exact ⟨copy, second, rfl, kind, others⟩

theorem of_nil (alike : Alike file [] other copies) : copies = [] :=
  List.map_eq_nil_iff.mp alike.kinds

end Token.Alike

namespace Cursor

/-- If nothing was recorded on the whole way, nothing was on its first part. -/
theorem Reaches.recorded_eq {first second third : Cursor} (before : first.Reaches second)
    (behind : second.Reaches third) (same : third.recorded = first.recorded) :
    second.recorded = first.recorded ∧ third.recorded = second.recorded := by
  have atMost := behind.recorded.length_le
  have first_eq : first.recorded = second.recorded := by
    refine before.recorded.eq_of_length_le ?_
    rw [← same]
    exact atMost
  exact ⟨first_eq.symm, same.trans first_eq⟩

end Cursor

/-- Whether a reader that sees a token may also look at the one behind it. -/
def TokenKind.looksFurther (kind : TokenKind) : Bool :=
  kind.isIdent || kind == .mark .dot

namespace Cursor

/-- Two cursors in front of the same: what the readers see without passing a
token agrees. -/
structure SameNext (here there : Cursor) : Prop where
  first : there.peek? 0 = here.peek? 0
  second : ∀ kind, here.peek? 0 = some kind → kind.looksFurther = true →
    there.peek? 1 = here.peek? 1

/-- Nothing is seen behind a token behind which nobody looks. -/
theorem SameNext.of_kind {here there : Cursor} {token copy : Token} {rest others : List Token}
    (ends : token.kind.looksFurther = false) (kind : copy.kind = token.kind)
    (hereIs : here.remaining = token :: rest) (thereIs : there.remaining = copy :: others) :
    here.SameNext there := by
  have first : here.peek? 0 = some token.kind := by
    rw [peek?, hereIs]
    rfl
  refine ⟨by rw [first, ← kind, peek?, thereIs]; rfl, fun next isNext further => ?_⟩
  obtain rfl := Option.some.inj (first.symm.trans isNext)
  rw [ends] at further
  cases further

/-- What comes next is seen from the tokens that are left. -/
theorem SameNext.of_remaining {here there other another : Cursor}
    (same : SameNext here there) (hereIs : other.remaining = here.remaining)
    (thereIs : another.remaining = there.remaining) : SameNext other another := by
  have hereEq (ahead : Nat) : other.peek? ahead = here.peek? ahead := by
    rw [peek?, hereIs, peek?]
  have thereEq (ahead : Nat) : another.peek? ahead = there.peek? ahead := by
    rw [peek?, thereIs, peek?]
  refine ⟨?_, fun kind next further => ?_⟩
  · rw [hereEq, thereEq, same.first]
  · rw [hereEq] at next ⊢
    rw [thereEq, same.second kind next further]

end Cursor

namespace Token.Alike

variable {file other : SourceFile} {tokens copies rest others : List Token} {here there : Cursor}

/-- In front of a copy of some tokens comes what came in front of them. -/
theorem peek?_eq (alike : Alike file tokens other copies) (nonempty : tokens ≠ [])
    (hereIs : here.remaining = tokens ++ rest) (thereIs : there.remaining = copies ++ others) :
    there.peek? 0 = here.peek? 0 := by
  cases tokens with
  | nil => exact absurd rfl nonempty
  | cons token tokens =>
      obtain ⟨copy, copies, rfl, kind, -⟩ := alike.of_cons
      simp only [Cursor.peek?, hereIs, thereIs, List.cons_append, List.getElem?_cons_zero,
        Option.map_some, kind]

/-- In front of equal tokens comes the same, if behind them comes the same. -/
theorem sameNext {previous another : Option Token} {recorded more : List Diagnostic}
    (alike : Alike file tokens other copies)
    (behind : Cursor.SameNext ⟨previous, rest, recorded⟩ ⟨another, others, more⟩)
    (hereIs : here.remaining = tokens ++ rest) (thereIs : there.remaining = copies ++ others) :
    here.SameNext there := by
  cases tokens with
  | nil =>
      obtain rfl := alike.of_nil
      exact behind.of_remaining hereIs thereIs
  | cons token tokens =>
      obtain ⟨copy, copies, rfl, kind, alike⟩ := alike.of_cons
      refine ⟨alike_first kind hereIs thereIs, fun _ _ _ => ?_⟩
      cases tokens with
      | nil =>
          obtain rfl := alike.of_nil
          simpa [Cursor.peek?, hereIs, thereIs] using behind.first
      | cons second tokens =>
          obtain ⟨copy, copies, rfl, kind, -⟩ := alike.of_cons
          simp [Cursor.peek?, hereIs, thereIs, kind]
where
  alike_first {token copy : Token} {tokens copies : List Token} (kind : copy.kind = token.kind)
      (hereIs : here.remaining = token :: tokens ++ rest)
      (thereIs : there.remaining = copy :: copies ++ others) : there.peek? 0 = here.peek? 0 := by
    simp [Cursor.peek?, hereIs, thereIs, kind]

/-- In front of equal tokens comes the same if the last of them is none behind
which one looks. -/
theorem sameNext_of_last {before : List Token} {last : Token}
    (alike : Alike file (before ++ [last]) other copies) (ends : last.kind.looksFurther = false)
    (hereIs : here.remaining = before ++ last :: rest)
    (thereIs : there.remaining = copies ++ others) : here.SameNext there := by
  obtain ⟨copiesBefore, copiesLast, rfl, alikeBefore, alikeLast⟩ := alike.of_append
  obtain ⟨copy, none, rfl, kind, empty⟩ := alikeLast.of_cons
  obtain rfl := empty.of_nil
  have behind : Cursor.SameNext ⟨none, last :: rest, []⟩ ⟨none, copy :: others, []⟩ :=
    .of_kind ends kind rfl rfl
  exact alikeBefore.sameNext behind hereIs (by rw [thereIs, List.append_assoc]; rfl)

end Token.Alike

namespace Parser

variable {α β γ σ τ : Type}

/-- Reading some tokens as a value does not depend on where they stand.  The
value is compared by a view of it, and `ends` says in front of what they have
to stand. -/
def Rereads (parser : Parser α) (view : α → β) (ends : Cursor → Prop) (file : SourceFile)
    (tokens : List Token) (value : α) : Prop :=
  ∀ (other : SourceFile) (previous : Option Token) (copies rest : List Token)
    (recorded : List Diagnostic), Token.Alike file tokens other copies →
    ends ⟨Token.lastOf previous copies, rest, recorded⟩ →
      ∃ again, view again = view value ∧
        parser other ⟨previous, copies ++ rest, recorded⟩ =
          .ok again ⟨Token.lastOf previous copies, rest, recorded⟩

/-- Whatever the first parser reads without a diagnostic is read by the second
one wherever the tokens stand in front of the same.  This may depend on what is
read and on what comes behind it. -/
structure RepeatsBefore (guard : α → Cursor → Prop) (parser again : Parser α) (view : α → β) :
    Prop where
  forward : Forward parser
  rereads : ∀ (file : SourceFile) (cursor later : Cursor) (value : α),
    parser file cursor = .ok value later → later.recorded = cursor.recorded →
      guard value later →
      ∃ tokens, cursor.remaining = tokens ++ later.remaining ∧
        Rereads again view later.SameNext file tokens value

/-- Whatever the first parser reads without a diagnostic is read by the second
one wherever the tokens stand in front of the same. -/
abbrev Repeats (parser again : Parser α) (view : α → β) : Prop :=
  RepeatsBefore (fun _ _ => True) parser again view

/-- Whatever the first parser reads without a diagnostic ends with a token behind
which nobody looks, and is read by the second one wherever it stands. -/
structure Closes (parser again : Parser α) (view : α → β) : Prop where
  forward : Forward parser
  rereads : ∀ (file : SourceFile) (cursor later : Cursor) (value : α),
    parser file cursor = .ok value later → later.recorded = cursor.recorded →
      ∃ before last, cursor.remaining = before ++ last :: later.remaining ∧
        last.kind.looksFurther = false ∧
        Rereads again view (fun _ => True) file (before ++ [last]) value

/-- Two parsers that only look, with the same view of the result. -/
def Settles (parser again : Parser α) (view : α → β) : Prop :=
  ∀ (file other : SourceFile) (here there : Cursor), ∃ value value',
    parser file here = .ok value here ∧ again other there = .ok value' there ∧
      view value' = view value

variable {parser again : Parser α} {view : α → β} {guard : α → Cursor → Prop}

/-- What stands anywhere stands in front of the same. -/
theorem Closes.repeats (closes : Closes parser again view) :
    RepeatsBefore guard parser again view := by
  refine ⟨closes.forward, fun file cursor later value run silent _ => ?_⟩
  obtain ⟨before, last, passed, -, rereads⟩ := closes.rereads file cursor later value run silent
  refine ⟨before ++ [last], by rw [passed, List.append_assoc]; rfl, ?_⟩
  intro other previous copies rest recorded alike _
  exact rereads other previous copies rest recorded alike trivial

section Looking

/-- A parser that only looks at what comes next sees the same in front of the
same. -/
theorem repeats_of_look
    (look : ∀ file other here there, here.SameNext there → ∃ value value',
      parser file here = .ok value here ∧ again other there = .ok value' there ∧
        view value' = view value) : RepeatsBefore guard parser again view := by
  have itself (cursor : Cursor) : cursor.SameNext cursor := ⟨rfl, fun _ _ _ => rfl⟩
  refine ⟨fun file cursor => ?_, fun file cursor later value run _ _ => ?_⟩
  · obtain ⟨value, -, run, -⟩ := look file file cursor cursor (itself cursor)
    rw [run]
    exact .refl cursor
  · obtain ⟨_, _, looked, -⟩ := look file file cursor cursor (itself cursor)
    cases looked.symm.trans run
    refine ⟨[], rfl, fun other previous copies rest recorded alike inFront => ?_⟩
    obtain rfl := alike.of_nil
    obtain ⟨_, value', looked, again, same⟩ := look file other cursor _ inFront
    cases looked.symm.trans run
    exact ⟨value', same, again⟩

theorem Settles.repeats (settles : Settles parser again view) :
    RepeatsBefore guard parser again view :=
  repeats_of_look fun file other here there _ => settles file other here there

theorem Settles.forward (settles : Settles parser again view) : Forward parser := by
  intro file cursor
  obtain ⟨_, _, looked, -⟩ := settles file file cursor cursor
  rw [looked]
  exact .refl cursor

theorem settles_pure {value value' : α} (same : view value' = view value) :
    Settles (pure value) (pure value') view :=
  fun _ _ _ _ => ⟨value, value', rfl, rfl, same⟩

theorem repeats_pure {value value' : α} (same : view value' = view value) :
    RepeatsBefore guard (pure value) (pure value') view :=
  (settles_pure same).repeats

theorem Settles.bind {next nextAgain : α → Parser γ} {result : γ → τ}
    (first : Settles parser again view)
    (second : ∀ value value', view value' = view value →
      Settles (next value) (nextAgain value') result) :
    Settles (parser >>= next) (again >>= nextAgain) result := by
  intro file other here there
  obtain ⟨value, value', run, runAgain, same⟩ := first file other here there
  obtain ⟨final, final', behind, behindAgain, agree⟩ :=
    second value value' same file other here there
  refine ⟨final, final', ?_, ?_, agree⟩
  · rw [bind_apply, run]
    exact behind
  · rw [bind_apply, runAgain]
    exact behindAgain

theorem settles_nextSpan : Settles nextSpan nextSpan fun _ => () :=
  fun file other here there =>
    ⟨_, _, nextSpan_apply file here, nextSpan_apply other there, rfl⟩

theorem settles_spanFrom (start start' : Span) :
    Settles (spanFrom start) (spanFrom start') fun _ => () :=
  fun file other here there =>
    ⟨_, _, spanFrom_apply file here start, spanFrom_apply other there start', rfl⟩

end Looking

section Sequences

variable {next nextAgain : α → Parser γ} {result : γ → τ} {ends : γ → Cursor → Prop}

/-- The parts of a run that succeeds without a diagnostic. -/
private theorem bind_parts {file : SourceFile} {cursor later : Cursor} {final : γ}
    (forward : Forward parser) (behind : ∀ value, Forward (next value))
    (run : (parser >>= next) file cursor = .ok final later)
    (silent : later.recorded = cursor.recorded) :
    ∃ value middle, parser file cursor = .ok value middle ∧
      next value file middle = .ok final later ∧ middle.recorded = cursor.recorded ∧
      later.recorded = middle.recorded := by
  rw [bind_apply] at run
  cases first : parser file cursor with
  | error diagnostic middle => simp [first] at run
  | ok value middle =>
      simp only [first] at run
      obtain ⟨silentFirst, silentRest⟩ :=
        (forward.of_ok first).recorded_eq ((behind value).of_ok run) silent
      exact ⟨value, middle, rfl, run, silentFirst, silentRest⟩

/-- A sequence is repeated if its parts are. -/
theorem RepeatsBefore.bind_before (first : RepeatsBefore guard parser again view)
    (second : ∀ value value', view value' = view value →
      RepeatsBefore ends (next value) (nextAgain value') result)
    (link : ∀ file value middle final later, next value file middle = .ok final later →
      ends final later → guard value middle) :
    RepeatsBefore ends (parser >>= next) (again >>= nextAgain) result := by
  have behind (value : α) : Forward (next value) := (second value value rfl).forward
  refine ⟨first.forward.bind behind, fun file cursor later final run silent ended => ?_⟩
  obtain ⟨value, middle, runFirst, runSecond, silentFirst, silentSecond⟩ :=
    bind_parts first.forward behind run silent
  obtain ⟨before, passed, rereads⟩ := first.rereads file cursor middle value runFirst silentFirst
    (link file value middle final later runSecond ended)
  obtain ⟨tokens, passedBehind, -⟩ :=
    (second value value rfl).rereads file middle later final runSecond silentSecond ended
  refine ⟨before ++ tokens, by rw [passed, passedBehind, List.append_assoc], ?_⟩
  intro other previous copies rest recorded alike inFront
  obtain ⟨copiesBefore, copiesBehind, rfl, alikeBefore, alikeBehind⟩ := alike.of_append
  rw [Token.lastOf_append] at inFront ⊢
  rw [List.append_assoc]
  obtain ⟨value', same, runAgain⟩ := rereads other previous copiesBefore (copiesBehind ++ rest)
    recorded alikeBefore (alikeBehind.sameNext inFront passedBehind rfl)
  obtain ⟨tokens', passedAgain, rereadsBehind⟩ :=
    (second value value' same).rereads file middle later final runSecond silentSecond ended
  obtain rfl : tokens = tokens' :=
    List.append_cancel_right (passedBehind.symm.trans passedAgain)
  obtain ⟨final', agree, runBehind⟩ :=
    rereadsBehind other _ copiesBehind rest recorded alikeBehind inFront
  refine ⟨final', agree, ?_⟩
  rw [bind_apply, runAgain]
  exact runBehind

theorem RepeatsBefore.bind (first : Repeats parser again view)
    (second : ∀ value value', view value' = view value →
      RepeatsBefore ends (next value) (nextAgain value') result) :
    RepeatsBefore ends (parser >>= next) (again >>= nextAgain) result :=
  first.bind_before second fun _ _ _ _ _ _ _ => trivial

/-- A sequence is closed by its second part. -/
theorem RepeatsBefore.bind_closes_before (first : RepeatsBefore guard parser again view)
    (second : ∀ value value', view value' = view value →
      Closes (next value) (nextAgain value') result)
    (link : ∀ file value middle final later, next value file middle = .ok final later →
      guard value middle) :
    Closes (parser >>= next) (again >>= nextAgain) result := by
  have behind (value : α) : Forward (next value) := (second value value rfl).forward
  refine ⟨first.forward.bind behind, fun file cursor later final run silent => ?_⟩
  obtain ⟨value, middle, runFirst, runSecond, silentFirst, silentSecond⟩ :=
    bind_parts first.forward behind run silent
  obtain ⟨before, passed, rereads⟩ := first.rereads file cursor middle value runFirst silentFirst
    (link file value middle final later runSecond)
  obtain ⟨tokens, last, passedBehind, unseen, -⟩ :=
    (second value value rfl).rereads file middle later final runSecond silentSecond
  refine ⟨before ++ tokens, last, by rw [passed, passedBehind, List.append_assoc], unseen, ?_⟩
  intro other previous copies rest recorded alike inFront
  rw [List.append_assoc] at alike
  obtain ⟨copiesBefore, copiesBehind, rfl, alikeBefore, alikeBehind⟩ := alike.of_append
  rw [Token.lastOf_append]
  rw [List.append_assoc]
  obtain ⟨value', same, runAgain⟩ := rereads other previous copiesBefore (copiesBehind ++ rest)
    recorded alikeBefore (alikeBehind.sameNext_of_last unseen passedBehind rfl)
  obtain ⟨tokens', last', passedAgain, -, rereadsBehind⟩ :=
    (second value value' same).rereads file middle later final runSecond silentSecond
  have sameTokens : tokens ++ [last] = tokens' ++ [last'] := by
    have sameRest :
        tokens ++ [last] ++ later.remaining = tokens' ++ [last'] ++ later.remaining := by
      rw [List.append_assoc, List.append_assoc]
      exact passedBehind.symm.trans passedAgain
    exact List.append_cancel_right sameRest
  rw [← sameTokens] at rereadsBehind
  obtain ⟨final', agree, runBehind⟩ :=
    rereadsBehind other _ copiesBehind rest recorded alikeBehind trivial
  refine ⟨final', agree, ?_⟩
  rw [bind_apply, runAgain]
  exact runBehind

theorem RepeatsBefore.bind_closes (first : Repeats parser again view)
    (second : ∀ value value', view value' = view value →
      Closes (next value) (nextAgain value') result) :
    Closes (parser >>= next) (again >>= nextAgain) result :=
  first.bind_closes_before second fun _ _ _ _ _ _ => trivial

/-- Looking behind a closing token does not matter. -/
theorem Closes.bind_settles (first : Closes parser again view)
    (second : ∀ value value', view value' = view value →
      Settles (next value) (nextAgain value') result) :
    Closes (parser >>= next) (again >>= nextAgain) result := by
  have behind (value : α) : Forward (next value) :=
    (second value value rfl).forward
  refine ⟨first.forward.bind behind, fun file cursor later final run silent => ?_⟩
  obtain ⟨value, middle, runFirst, runSecond, silentFirst, -⟩ :=
    bind_parts first.forward behind run silent
  obtain rfl : middle = later := by
    obtain ⟨_, _, settled, -⟩ := second value value rfl file file middle middle
    cases settled.symm.trans runSecond
    rfl
  obtain ⟨before, last, passed, unseen, rereads⟩ :=
    first.rereads file cursor middle value runFirst silentFirst
  refine ⟨before, last, passed, unseen, ?_⟩
  intro other previous copies rest recorded alike _
  obtain ⟨value', same, runAgain⟩ := rereads other previous copies rest recorded alike trivial
  obtain ⟨found, final', settledHere, settledThere, agree⟩ :=
    second value value' same file other middle ⟨Token.lastOf previous copies, rest, recorded⟩
  obtain rfl : found = final := by
    cases settledHere.symm.trans runSecond
    rfl
  refine ⟨final', agree, ?_⟩
  rw [bind_apply, runAgain]
  exact settledThere

end Sequences

section Branches

variable {other otherAgain : Parser α}

theorem RepeatsBefore.ite {condition : Prop} [Decidable condition]
    (holds : condition → RepeatsBefore guard parser again view)
    (fails : ¬condition → RepeatsBefore guard other otherAgain view) :
    RepeatsBefore guard (if condition then parser else other)
      (if condition then again else otherAgain) view := by
  by_cases isTrue : condition
  · rw [if_pos isTrue, if_pos isTrue]
    exact holds isTrue
  · rw [if_neg isTrue, if_neg isTrue]
    exact fails isTrue

theorem Closes.ite {condition : Prop} [Decidable condition]
    (holds : condition → Closes parser again view)
    (fails : ¬condition → Closes other otherAgain view) :
    Closes (if condition then parser else other) (if condition then again else otherAgain)
      view := by
  by_cases isTrue : condition
  · rw [if_pos isTrue, if_pos isTrue]
    exact holds isTrue
  · rw [if_neg isTrue, if_neg isTrue]
    exact fails isTrue

/-- A parser that fails repeats nothing. -/
theorem repeats_failExpecting (expected : String) :
    RepeatsBefore guard (failExpecting expected) again view := by
  refine ⟨forward_failExpecting expected, fun file cursor later value run => ?_⟩
  rw [failExpecting_apply] at run
  cases run

end Branches

section Primitives

/-- What a look makes of the next token is the same in front of the same. -/
theorem repeats_of_first {parser : Parser α} {guard : α → Cursor → Prop}
    (value : Option TokenKind → α)
    (look : ∀ file cursor, parser file cursor = .ok (value (cursor.peek? 0)) cursor) :
    RepeatsBefore guard parser parser id :=
  repeats_of_look fun file other here there same =>
    ⟨_, _, look file here, look other there, congrArg value same.first⟩

theorem repeats_peek {guard : Option TokenKind → Cursor → Prop} :
    RepeatsBefore guard peek peek id :=
  repeats_of_first id peek_apply

theorem repeats_peekName {guard : Option String → Cursor → Prop} :
    RepeatsBefore guard peekName peekName id :=
  repeats_of_first (·.bind TokenKind.ident?) peekName_apply

theorem repeats_atMark {guard : Bool → Cursor → Prop} (mark : Mark) :
    RepeatsBefore guard (atMark mark) (atMark mark) id :=
  repeats_of_first (· == some (.mark mark)) fun file cursor => atMark_apply file cursor mark

/-- A look at the second token is repeated if it only matters where the first one
may be looked behind. -/
theorem repeats_of_second {parser : Parser Bool} {guard : Bool → Cursor → Prop}
    (first : Option TokenKind → Bool) (second : Option TokenKind → Bool)
    (further : ∀ next, first next = true → ∃ kind, next = some kind ∧ kind.looksFurther = true)
    (look : ∀ file cursor,
      parser file cursor = .ok (first (cursor.peek? 0) && second (cursor.peek? 1)) cursor) :
    RepeatsBefore guard parser parser id := by
  refine repeats_of_look fun file other here there same =>
    ⟨_, _, look file here, look other there, ?_⟩
  rw [same.first]
  cases isFirst : first (here.peek? 0) with
  | false => rfl
  | true =>
      obtain ⟨kind, next, looks⟩ := further _ isFirst
      rw [same.second kind next looks]

/-- One may look behind a name. -/
theorem further_of_ident {next : Option TokenKind}
    (named : (next.bind TokenKind.ident?).isSome = true) :
    ∃ kind, next = some kind ∧ kind.looksFurther = true := by
  obtain ⟨name, isName⟩ := Option.isSome_iff_exists.mp named
  obtain ⟨kind, rfl, ident⟩ := Option.bind_eq_some_iff.mp isName
  refine ⟨kind, rfl, ?_⟩
  simp [TokenKind.looksFurther, TokenKind.isIdent, ident]

/-- A look at the token behind a name. -/
theorem repeats_of_behindName {parser : Parser Bool} {guard : Bool → Cursor → Prop}
    (second : Option TokenKind → Bool)
    (look : ∀ file cursor, parser file cursor =
      .ok (((cursor.peek? 0).bind TokenKind.ident?).isSome && second (cursor.peek? 1)) cursor) :
    RepeatsBefore guard parser parser id :=
  repeats_of_second (fun next => (next.bind TokenKind.ident?).isSome) second
    (fun _ => further_of_ident) look

theorem repeats_advance {guard : Unit → Cursor → Prop} :
    RepeatsBefore guard advance advance id := by
  refine ⟨forward_advance, fun file cursor later value run _ _ => ?_⟩
  rw [advance_apply] at run
  cases run
  obtain ⟨previous, remaining, recorded⟩ := cursor
  cases remaining with
  | nil =>
      refine ⟨[], rfl, fun other before copies rest more alike inFront => ?_⟩
      obtain rfl := alike.of_nil
      obtain rfl : rest = [] := by
        have none := inFront.first
        rw [Cursor.peek?, Cursor.peek?] at none
        simpa [Cursor.advance] using none
      exact ⟨(), rfl, rfl⟩
  | cons token tokens =>
      refine ⟨[token], rfl, fun other before copies rest more alike _ => ?_⟩
      obtain ⟨copy, none, rfl, -, empty⟩ := alike.of_cons
      obtain rfl := empty.of_nil
      exact ⟨(), rfl, rfl⟩

/-- A token that has to come next is passed wherever it stands. -/
private theorem rereads_of_next {parser : Parser α} {view : α → β} {ends : Cursor → Prop}
    {file : SourceFile} {token : Token} {value : α}
    (passes : ∀ file cursor, cursor.peek? 0 = some token.kind → ∃ again,
      view again = view value ∧ parser file cursor = .ok again cursor.advance) :
    Rereads parser view ends file [token] value := by
  intro other previous copies rest recorded alike _
  obtain ⟨copy, none, rfl, kind, empty⟩ := alike.of_cons
  obtain rfl := empty.of_nil
  obtain ⟨again, same, run⟩ := passes other ⟨previous, copy :: rest, recorded⟩ (congrArg some kind)
  exact ⟨again, same, run⟩

theorem repeats_expect {guard : Unit → Cursor → Prop} (mark : Mark) :
    RepeatsBefore guard (expect mark) (expect mark) id := by
  refine ⟨forward_expect mark, fun file cursor later value run _ _ => ?_⟩
  rw [expect_apply] at run
  by_cases comes : cursor.peek? 0 = some (.mark mark)
  · rw [if_pos comes] at run
    cases run
    obtain ⟨token, kind, remaining⟩ := Cursor.remaining_eq_cons comes
    refine ⟨[token], remaining, rereads_of_next fun file there next => ?_⟩
    exact ⟨(), rfl, by rw [expect_apply, if_pos (next.trans (congrArg some kind))]⟩
  · rw [if_neg comes] at run
    cases run

theorem closes_expect (mark : Mark) (ends : mark ≠ .dot) :
    Closes (expect mark) (expect mark) id := by
  refine ⟨forward_expect mark, fun file cursor later value run _ => ?_⟩
  rw [expect_apply] at run
  by_cases comes : cursor.peek? 0 = some (.mark mark)
  · rw [if_pos comes] at run
    cases run
    obtain ⟨token, kind, remaining⟩ := Cursor.remaining_eq_cons comes
    refine ⟨[], token, remaining, ?_, rereads_of_next fun file there next => ?_⟩
    · rw [kind]
      simp [TokenKind.looksFurther, TokenKind.isIdent, TokenKind.ident?, ends]
    · exact ⟨(), rfl, by rw [expect_apply, if_pos (next.trans (congrArg some kind))]⟩
  · rw [if_neg comes] at run
    cases run

theorem repeats_expectIdent {guard : String × Span → Cursor → Prop} :
    RepeatsBefore guard expectIdent expectIdent Prod.fst := by
  refine ⟨forward_expectIdent, fun file cursor later value run _ _ => ?_⟩
  rw [expectIdent_apply] at run
  cases named : (cursor.peek? 0).bind TokenKind.ident? with
  | none => simp [named] at run
  | some name =>
      simp only [named] at run
      cases run
      obtain ⟨token, kind, remaining⟩ := Cursor.remaining_eq_cons (Cursor.peek?_eq_ident named)
      refine ⟨[token], remaining, rereads_of_next fun file there next => ?_⟩
      refine ⟨(name, there.nextSpan file), rfl, ?_⟩
      rw [expectIdent_apply, next, kind]
      rfl

theorem repeats_eat {guard : Bool → Cursor → Prop} (mark : Mark) :
    RepeatsBefore guard (eat mark) (eat mark) id := by
  refine (repeats_atMark mark).bind fun here there same => ?_
  obtain rfl : there = here := same
  refine .ite (fun _ => ?_) fun _ => repeats_pure rfl
  exact repeats_advance.bind fun _ _ _ => repeats_pure rfl

end Primitives

section Loops

variable {step : σ → Parser (ForInStep σ)} {state state' : σ}

/-- What a round leads to, by a view of the state. -/
def stepView (view : σ → β) : ForInStep σ → ForInStep β
  | .done state => .done (view state)
  | .yield state => .yield (view state)

/-- What comes behind the last round of a loop. -/
def loopGuard (ends : σ → Cursor → Prop) : ForInStep σ → Cursor → Prop
  | .done state => ends state
  | .yield _ => fun _ => True

/-- A loop is repeated if its rounds are. -/
theorem repeats_loop {view : σ → β} {ends : σ → Cursor → Prop} (progress : Progresses step)
    (rounds : ∀ state state', view state' = view state →
      RepeatsBefore (loopGuard ends) (step state) (step state') (stepView view))
    (same : view state' = view state) :
    RepeatsBefore ends (loop state step) (loop state' step) view := by
  have forward (state : σ) : Forward (step state) := (rounds state state rfl).forward
  refine ⟨forward_loop forward state, fun file cursor later result run silent ended => ?_⟩
  induction length : cursor.remaining.length using Nat.strongRecOn
    generalizing state state' cursor with
  | ind size ih =>
  cases round : step state file cursor with
  | error diagnostic reached =>
      rw [loop_of_error file progress round] at run
      cases run
  | ok outcome reached =>
      cases outcome with
      | done value =>
          rw [loop_of_done file progress round] at run
          cases run
          obtain ⟨tokens, passed, again⟩ :=
            (rounds state state' same).rereads file cursor later _ round silent ended
          refine ⟨tokens, passed, fun place previous copies rest recorded alike inFront => ?_⟩
          obtain ⟨outcome, agrees, repeated⟩ :=
            again place previous copies rest recorded alike inFront
          cases outcome with
          | yield next => cases agrees
          | done value =>
              exact ⟨value, ForInStep.done.inj agrees, loop_of_done place progress repeated⟩
      | yield next =>
          rw [loop_of_yield file progress round] at run
          obtain ⟨silentRound, silentRest⟩ := ((forward state).of_ok round).recorded_eq
            ((forward_loop forward next).of_ok run) silent
          have less := progress file state next cursor reached round
          obtain ⟨before, passed, again⟩ :=
            (rounds state state' same).rereads file cursor reached _ round silentRound trivial
          obtain ⟨behind, passedRest, -⟩ :=
            ih reached.remaining.length (by omega) rfl reached run silentRest rfl
          refine ⟨before ++ behind, by rw [passed, passedRest, List.append_assoc], ?_⟩
          intro place previous copies rest recorded alike inFront
          obtain ⟨copiesBefore, copiesBehind, rfl, alikeBefore, alikeBehind⟩ := alike.of_append
          rw [Token.lastOf_append] at inFront ⊢
          rw [List.append_assoc]
          obtain ⟨outcome, agrees, repeated⟩ := again place previous copiesBefore
            (copiesBehind ++ rest) recorded alikeBefore
              (alikeBehind.sameNext inFront passedRest rfl)
          cases outcome with
          | done value => cases agrees
          | yield value =>
              rw [loop_of_yield place progress repeated]
              obtain ⟨behindAgain, passedAgain, againRest⟩ :=
                ih reached.remaining.length (by omega) (ForInStep.yield.inj agrees) reached run
                  silentRest rfl
              obtain rfl : behind = behindAgain :=
                List.append_cancel_right (passedRest.symm.trans passedAgain)
              exact againRest place _ copiesBehind rest recorded alikeBehind inFront

end Loops

/-- What spells a type is read in front of what does not continue it. -/
theorem type_of_spelled {kinds : List TokenKind} {written : TypeExpr}
    (spells : Spells kinds (.type written)) {file : SourceFile} {previous : Option Token}
    {tokens rest : List Token} {recorded : List Diagnostic} (areKinds : tokens.map (·.kind) = kinds)
    (ends : (Cursor.mk (Token.lastOf previous tokens) rest recorded).EndsType) :
    ∃ read, read.unplaced = written ∧ type file ⟨previous, tokens ++ rest, recorded⟩ =
      .ok read ⟨Token.lastOf previous tokens, rest, recorded⟩ := by
  have enough : (tokens ++ rest).length < (tokens ++ rest).length + 1 := Nat.lt_succ_self _
  obtain ⟨read, same, run⟩ :=
    (spells.isRead _ file previous tokens rest recorded areKinds).ok enough ends
  exact ⟨read, same, run⟩

/-- A type is read wherever its spelling stands in front of something that does
not continue it. -/
theorem rereads_type {file : SourceFile} {tokens : List Token} {value : TypeExpr}
    (spells : Spells (tokens.map (·.kind)) (.type value.unplaced)) :
    Rereads type TypeExpr.unplaced Cursor.EndsType file tokens value :=
  fun _ _ _ _ _ alike inFront => type_of_spelled spells alike.kinds inFront

/-- Between angle brackets, type arguments are read. -/
private theorem typeArguments_of_spelled {kinds : List TokenKind} {types : List TypeExpr}
    (spells : Spells kinds (.arguments types)) (file : SourceFile) (previous : Option Token)
    {tokens : List Token} (rest : List Token) (recorded : List Diagnostic)
    (kindsAre : tokens.map (·.kind) = .mark .less :: (kinds ++ [.mark .greater])) :
    ∃ read, read.map TypeExpr.unplaced = types ∧
      typeArguments type file ⟨previous, tokens ++ rest, recorded⟩ =
        .ok read ⟨Token.lastOf previous tokens, rest, recorded⟩ := by
  obtain ⟨opening, others, rfl, opens, spelled⟩ := List.map_eq_cons_iff.mp kindsAre
  obtain ⟨inner, others, rfl, within, closed⟩ := List.map_eq_append_iff.mp spelled
  obtain ⟨closing, others, rfl, closes, closed⟩ := List.map_eq_cons_iff.mp closed
  obtain rfl := List.map_eq_nil_iff.mp closed
  have tokensAre : opening :: (inner ++ [closing]) ++ rest =
      opening :: (inner ++ closing :: rest) := by
    simp
  let depth := (opening :: (inner ++ closing :: rest)).length
  obtain ⟨read, same, run⟩ := spells.isRead depth file (some opening) inner (closing :: rest)
    recorded within (Nat.lt_succ_self _) (congrArg some closes) []
  have nonempty : read ≠ [] := by
    rintro rfl
    exact spells.arguments_ne_nil same.symm
  let cursor : Cursor := ⟨previous, opening :: (inner ++ closing :: rest), recorded⟩
  have enoughDepth :
      typeArguments (typeWithin depth) file cursor = typeArguments type file cursor :=
    typeArguments_congr (forward_typeWithin depth) (fun _ enough => typeWithin_eq_type enough)
      (congrArg some opens) (Nat.le_refl depth)
  refine ⟨read, same, ?_⟩
  rw [tokensAre, ← enoughDepth, typeArguments_apply, Cursor.advance_cons, run]
  simp [nonempty, closes]

/-- Type arguments that have been read are read wherever they stand. -/
theorem rereads_typeArguments {file : SourceFile} {cursor later : Cursor}
    {types : List TypeExpr} (opened : cursor.peek? 0 = some (.mark .less))
    (run : typeArguments type file cursor = .ok types later)
    (ended : later.peek? 0 ≠ some (.mark .less)) :
    ∃ tokens, tokens ≠ [] ∧ cursor.remaining = tokens ++ later.remaining ∧
      ∀ ends, Rereads (typeArguments type) (List.map TypeExpr.unplaced) ends file tokens types := by
  have spelled : TypesSpelled type := fun file cursor => typeWithin_spelled _ file cursor
  rcases typeArguments_spelled file forward_type spelled opened with
    none | ⟨found, reached, tokens, read, passed, kinds, inner, kindsAre⟩
  · rw [none] at run
    cases run
    exact absurd opened ended
  · rw [read] at run
    cases run
    refine ⟨tokens, ?_, passed, fun ends => ?_⟩
    · rintro rfl
      cases kindsAre
    intro other previous copies rest recorded alike _
    obtain ⟨again, same, repeated⟩ := typeArguments_of_spelled inner other previous rest recorded
      (alike.kinds.trans kindsAre)
    exact ⟨again, same, repeated⟩

end Parser

end ErrorAccessors
