/-
# How far the reader of types looks

The reader of types may try type arguments and give them up, so that it looks
further than it reads.  It never looks beyond a semicolon or a brace, though.
In front of the same tokens up to the first of these it therefore does the same,
whether it reads a type or fails, and whatever stands behind.

A reading and its repetition go on abreast: as long as both have passed tokens of
the same kinds, they see the same.
-/

import ErrorAccessors.Proofs.Rereading

namespace ErrorAccessors

/-- The marks beyond which no reader of types looks. -/
def TokenKind.stops (kind : TokenKind) : Bool :=
  kind == .mark .semicolon || kind == .mark .leftBrace || kind == .mark .rightBrace

/-- Token kinds up to the first one that stops the reader of types. -/
def TokenKind.upToStop : List TokenKind → List TokenKind
  | [] => []
  | kind :: kinds => if kind.stops then [kind] else kind :: upToStop kinds

namespace Cursor

/-- Two cursors in front of the same, as far as the reader of types looks. -/
def SameUpToStop (here there : Cursor) : Prop :=
  TokenKind.upToStop (there.remaining.map (·.kind)) =
    TokenKind.upToStop (here.remaining.map (·.kind))

theorem SameUpToStop.first {here there : Cursor} (same : here.SameUpToStop there) :
    there.peek? 0 = here.peek? 0 := by
  obtain ⟨previous, remaining, recorded⟩ := here
  obtain ⟨previous', remaining', recorded'⟩ := there
  cases remaining <;> cases remaining' <;>
    simp only [SameUpToStop, TokenKind.upToStop, List.map_nil, List.map_cons] at same
  · rfl
  · split at same <;> cases same
  · split at same <;> cases same
  · next token tokens copy copies =>
    have kind : copy.kind = token.kind := by
      split at same <;> split at same <;> exact (List.cons.inj same).1
    exact congrArg some kind

/-- Behind a token that does not stop the reader comes the same again. -/
theorem SameUpToStop.advance {here there : Cursor} (same : here.SameUpToStop there)
    {kind : TokenKind} (next : here.peek? 0 = some kind) (goesOn : kind.stops = false) :
    here.advance.SameUpToStop there.advance := by
  have nextThere := same.first.trans next
  obtain ⟨token, isKind, remaining⟩ := Cursor.remaining_eq_cons next
  obtain ⟨copy, isKind', remaining'⟩ := Cursor.remaining_eq_cons nextThere
  rw [SameUpToStop, remaining, remaining', List.map_cons, List.map_cons, TokenKind.upToStop,
    TokenKind.upToStop, isKind, isKind', if_neg (by simp [goesOn]),
    if_neg (by simp [goesOn])] at same
  exact (List.cons.inj same).2

theorem SameUpToStop.second {here there : Cursor} (same : here.SameUpToStop there)
    {kind : TokenKind} (next : here.peek? 0 = some kind) (goesOn : kind.stops = false) :
    there.peek? 1 = here.peek? 1 := by
  rw [← peek?_advance next, ← peek?_advance (same.first.trans next)]
  exact (same.advance next goesOn).first

/-- Some tokens are passed, and nothing is recorded. -/
structure Passes (tokens : List Token) (earlier later : Cursor) : Prop where
  remaining : earlier.remaining = tokens ++ later.remaining
  previous : later.previous = Token.lastOf earlier.previous tokens
  recorded : later.recorded = earlier.recorded

theorem Passes.refl (cursor : Cursor) : Passes [] cursor cursor :=
  ⟨rfl, rfl, rfl⟩

theorem Passes.trans {tokens more : List Token} {first second third : Cursor}
    (before : Passes tokens first second) (behind : Passes more second third) :
    Passes (tokens ++ more) first third := by
  refine ⟨?_, ?_, behind.recorded.trans before.recorded⟩
  · rw [before.remaining, behind.remaining, List.append_assoc]
  · rw [behind.previous, before.previous, Token.lastOf_append]

/-- Two readings that started at the same have passed tokens of the same kinds and
are in front of the same. -/
structure Abreast (here there later other : Cursor) : Prop where
  passed : ∃ tokens copies, Passes tokens here later ∧ Passes copies there other ∧
    copies.map (·.kind) = tokens.map (·.kind)
  same : later.SameUpToStop other

theorem Abreast.refl {here there : Cursor} (same : here.SameUpToStop there) :
    Abreast here there here there :=
  ⟨⟨[], [], .refl here, .refl there, rfl⟩, same⟩

theorem Abreast.trans {here there middle between later other : Cursor}
    (before : Abreast here there middle between) (behind : Abreast middle between later other) :
    Abreast here there later other := by
  obtain ⟨tokens, copies, passed, copied, kinds⟩ := before.passed
  obtain ⟨more, others, passedMore, copiedMore, kindsMore⟩ := behind.passed
  refine ⟨⟨tokens ++ more, copies ++ others, passed.trans passedMore, copied.trans copiedMore, ?_⟩,
    behind.same⟩
  rw [List.map_append, List.map_append, kinds, kindsMore]

/-- Where the repeated reading is, if as many tokens have been passed as some of
those in front of it. -/
theorem Abreast.eq_of_length {here later other : Cursor} {previous : Option Token}
    {tokens copies rest : List Token} {recorded : List Diagnostic}
    (abreast : Abreast here ⟨previous, copies ++ rest, recorded⟩ later other)
    (passed : here.remaining = tokens ++ later.remaining)
    (lengths : copies.length = tokens.length) :
    other = ⟨Token.lastOf previous copies, rest, recorded⟩ := by
  obtain ⟨stretch, copied, passes, copyPasses, kinds⟩ := abreast.passed
  obtain rfl : stretch = tokens := List.append_cancel_right (passes.remaining.symm.trans passed)
  have same : copies.length = copied.length := by
    rw [lengths]
    simpa using congrArg List.length kinds.symm
  obtain ⟨rfl, rest'⟩ := List.append_inj copyPasses.remaining same
  obtain ⟨before, left, reported⟩ := other
  obtain rfl : before = _ := copyPasses.previous
  obtain rfl : reported = _ := copyPasses.recorded
  rw [rest']

/-- Both readings step over the next token. -/
theorem Abreast.advance {here there later other : Cursor} (abreast : Abreast here there later other)
    {kind : TokenKind} (next : later.peek? 0 = some kind) (goesOn : kind.stops = false) :
    Abreast here there later.advance other.advance := by
  have step {cursor : Cursor} (next : cursor.peek? 0 = some kind) :
      ∃ token, token.kind = kind ∧ Passes [token] cursor cursor.advance := by
    obtain ⟨previous, remaining, recorded⟩ := cursor
    cases remaining with
    | nil => cases next
    | cons token rest => exact ⟨token, Option.some.inj next, rfl, rfl, rfl⟩
  obtain ⟨token, isKind, passed⟩ := step next
  obtain ⟨copy, isKind', copied⟩ := step (abreast.same.first.trans next)
  refine abreast.trans ⟨⟨[token], [copy], passed, copied, ?_⟩, abreast.same.advance next goesOn⟩
  rw [List.map_singleton, List.map_singleton, isKind, isKind']

end Cursor

namespace Parser

open Cursor

variable {α β σ : Type}

/-- Two readings end alike: both read the same, or both fail, and they are still
abreast. -/
inductive SameOutcome (view : α → β) (here there : Cursor) :
    EStateM.Result Diagnostic Cursor α → EStateM.Result Diagnostic Cursor α → Prop
  | ok {value again : α} {later other : Cursor} (same : view again = view value)
      (abreast : Abreast here there later other) :
      SameOutcome view here there (.ok value later) (.ok again other)
  | error {diagnostic different : Diagnostic} {later other : Cursor}
      (abreast : Abreast here there later other) :
      SameOutcome view here there (.error diagnostic later) (.error different other)

/-- Two parsers do the same in front of the same, as far as the reader of types
looks. -/
def Mirrors (view : α → β) (parser again : Parser α) : Prop :=
  ∀ (file other : SourceFile) (here there : Cursor), here.SameUpToStop there →
    SameOutcome view here there (parser file here) (again other there)

/-- What started later ends alike as a whole. -/
theorem SameOutcome.behind {view : α → β} {here there later other : Cursor}
    {result again : EStateM.Result Diagnostic Cursor α} (before : Abreast here there later other)
    (outcome : SameOutcome view later other result again) :
    SameOutcome view here there result again := by
  cases outcome with
  | ok same abreast => exact .ok same (before.trans abreast)
  | error abreast => exact .error (before.trans abreast)

/-- A loop does the same if its rounds do. -/
theorem mirrors_loop {view : σ → β} {step again : σ → Parser (ForInStep σ)}
    (progress : Progresses step) (progress' : Progresses again)
    (rounds : ∀ state state', view state' = view state →
      Mirrors (stepView view) (step state) (again state'))
    {state state' : σ} (same : view state' = view state) :
    Mirrors view (loop state step) (loop state' again) := by
  intro file other here there ahead
  induction length : here.remaining.length using Nat.strongRecOn
    generalizing state state' here there with
  | ind size ih =>
  have outcome := rounds state state' same file other here there ahead
  rw [loop_apply file progress, loop_apply other progress']
  cases round : step state file here with
  | error diagnostic later =>
      cases roundAgain : again state' other there with
      | ok _ _ =>
          rw [round, roundAgain] at outcome
          cases outcome
      | error different later' =>
          rw [round, roundAgain] at outcome
          cases outcome with
          | error abreast => exact .error abreast
  | ok result later =>
      cases roundAgain : again state' other there with
      | error _ _ =>
          rw [round, roundAgain] at outcome
          cases outcome
      | ok result' later' =>
          rw [round, roundAgain] at outcome
          cases outcome with
          | ok agrees abreast =>
              cases result with
              | done value =>
                  cases result' with
                  | yield _ => cases agrees
                  | done value' => exact .ok (ForInStep.done.inj agrees) abreast
              | yield next =>
                  cases result' with
                  | done _ => cases agrees
                  | yield next' =>
                      have less := progress file state next here later round
                      exact (ih later.remaining.length (by omega) (ForInStep.yield.inj agrees) later
                        later' abreast.same rfl).behind abreast

section Types

variable {type again : Parser TypeExpr}

private theorem map_append_singleton {view : α → β} {found found' : List α} {value value' : α}
    (same : found'.map view = found.map view) (agrees : view value' = view value) :
    (found' ++ [value']).map view = (found ++ [value]).map view := by
  rw [List.map_append, List.map_append, same, List.map_singleton, List.map_singleton, agrees]

private theorem mirrors_argumentRound (mirrors : Mirrors TypeExpr.unplaced type again)
    {found found' : List TypeExpr}
    (same : found'.map TypeExpr.unplaced = found.map TypeExpr.unplaced) :
    Mirrors (stepView (List.map TypeExpr.unplaced)) (argumentRound type found)
      (argumentRound again found') := by
  intro file other here there ahead
  rw [argumentRound_apply, argumentRound_apply]
  have outcome := mirrors file other here there ahead
  generalize type file here = result at outcome ⊢
  generalize again other there = result' at outcome ⊢
  cases outcome with
  | error abreast => exact .ok (congrArg ForInStep.done same) abreast
  | ok agrees abreast =>
      have longer := map_append_singleton same agrees
      simp only [abreast.same.first]
      split
      · next comma => exact .ok (congrArg ForInStep.yield longer) (abreast.advance comma rfl)
      · exact .ok (congrArg ForInStep.done longer) abreast

/-- Type arguments are read or given up alike. -/
private theorem mirrors_argumentsIfAny (mirrors : Mirrors TypeExpr.unplaced type again)
    (forward : Forward type) (forward' : Forward again) :
    Mirrors (List.map TypeExpr.unplaced) (argumentsIfAny type) (argumentsIfAny again) := by
  intro file other here there ahead
  rw [argumentsIfAny_apply, argumentsIfAny_apply, ahead.first]
  by_cases less : here.peek? 0 = some (.mark .less)
  · rw [if_pos less, if_pos less, typeArguments_apply, typeArguments_apply]
    have opened := (Abreast.refl ahead).advance less rfl
    have nothing : ([] : List TypeExpr).map TypeExpr.unplaced = [].map TypeExpr.unplaced := rfl
    have outcome := mirrors_loop (progresses_argumentRound forward)
      (progresses_argumentRound forward') (fun _ _ same => mirrors_argumentRound mirrors same)
      nothing file other here.advance there.advance opened.same
    generalize loop [] (argumentRound type) file here.advance = result at outcome ⊢
    generalize loop [] (argumentRound again) other there.advance = result' at outcome ⊢
    cases outcome with
    | error abreast => exact .error (opened.trans abreast)
    | @ok value value' later later' agrees abreast =>
        have empty : value' ≠ [] ↔ value ≠ [] := by
          rw [ne_eq, ← List.map_eq_nil_iff (f := TypeExpr.unplaced), agrees, List.map_eq_nil_iff]
        simp only [abreast.same.first, empty]
        split
        · next closed => exact .ok agrees ((opened.trans abreast).advance closed.2 rfl)
        · exact .ok rfl (.refl ahead)
  · rw [if_neg less, if_neg less]
    exact .ok rfl (.refl ahead)

private theorem mirrors_segmentRound (mirrors : Mirrors TypeExpr.unplaced type again)
    (forward : Forward type) (forward' : Forward again) {found found' : List NameSegment}
    (same : found'.map NameSegment.unplaced = found.map NameSegment.unplaced) :
    Mirrors (stepView (List.map NameSegment.unplaced)) (segmentRound type found)
      (segmentRound again found') := by
  intro file other here there ahead
  rw [segmentRound_apply, segmentRound_apply, ahead.first]
  cases named : (here.peek? 0).bind TokenKind.ident? with
  | none => exact .error (.refl ahead)
  | some name =>
      have passed := (Abreast.refl ahead).advance (peek?_eq_ident named) rfl
      have outcome := mirrors_argumentsIfAny mirrors forward forward' file other _ _ passed.same
      generalize argumentsIfAny type file here.advance = result at outcome ⊢
      generalize argumentsIfAny again other there.advance = result' at outcome ⊢
      cases outcome with
      | error abreast => exact .error (passed.trans abreast)
      | @ok arguments arguments' later later' agrees abreast =>
          have last : NameSegment.unplaced ⟨name, arguments'⟩ =
              NameSegment.unplaced ⟨name, arguments⟩ := congrArg (NameSegment.mk name) agrees
          have longer := map_append_singleton same last
          simp only []
          by_cases dot : later.peek? 0 = some (.mark .dot)
          · simp only [abreast.same.first, abreast.same.second dot rfl]
            split
            · exact .ok (congrArg ForInStep.yield longer) ((passed.trans abreast).advance dot rfl)
            · exact .ok (congrArg ForInStep.done longer) (passed.trans abreast)
          · rw [if_neg fun both => dot both.1,
              if_neg fun both => dot (abreast.same.first ▸ both.1)]
            exact .ok (congrArg ForInStep.done longer) (passed.trans abreast)

private theorem mirrors_nameSegments (mirrors : Mirrors TypeExpr.unplaced type again)
    (forward : Forward type) (forward' : Forward again) :
    Mirrors (List.map NameSegment.unplaced) (nameSegments type) (nameSegments again) :=
  mirrors_loop (progresses_segmentRound forward) (progresses_segmentRound forward')
    (fun _ _ same => mirrors_segmentRound mirrors forward forward' same) rfl

private theorem mirrors_elementRound (mirrors : Mirrors TypeExpr.unplaced type again)
    {found found' : List TupleElement}
    (same : found'.map TupleElement.unplaced = found.map TupleElement.unplaced) :
    Mirrors (stepView (List.map TupleElement.unplaced)) (elementRound type found)
      (elementRound again found') := by
  intro file other here there ahead
  rw [elementRound_apply, elementRound_apply]
  have outcome := mirrors file other here there ahead
  generalize type file here = result at outcome ⊢
  generalize again other there = result' at outcome ⊢
  cases outcome with
  | error abreast => exact .error abreast
  | @ok element element' later later' agrees abreast =>
      have last (name : Option String) : TupleElement.unplaced ⟨element', name⟩ =
          TupleElement.unplaced ⟨element, name⟩ := congrArg (TupleElement.mk · name) agrees
      have longer (name : Option String) := map_append_singleton same (last name)
      have goesOn (name : Option String) {behind behind' : Cursor}
          (abreast : Abreast here there behind behind') :
          SameOutcome (stepView (List.map TupleElement.unplaced)) here there
            (if behind.peek? 0 = some (.mark .comma) then
              .ok (.yield (found ++ [⟨element, name⟩])) behind.advance
            else .ok (.done (found ++ [⟨element, name⟩])) behind)
            (if behind'.peek? 0 = some (.mark .comma) then
              .ok (.yield (found' ++ [⟨element', name⟩])) behind'.advance
            else .ok (.done (found' ++ [⟨element', name⟩])) behind') := by
        rw [abreast.same.first]
        split
        · next comma =>
            exact .ok (congrArg ForInStep.yield (longer name)) (abreast.advance comma rfl)
        · exact .ok (congrArg ForInStep.done (longer name)) abreast
      simp only [abreast.same.first]
      cases named : (later.peek? 0).bind TokenKind.ident? with
      | none => exact goesOn none abreast
      | some name => exact goesOn (some name) (abreast.advance (peek?_eq_ident named) rfl)

private theorem mirrors_tupleType (mirrors : Mirrors TypeExpr.unplaced type again)
    (forward : Forward type) (forward' : Forward again) (start start' : Span)
    {file other : SourceFile} {here there : Cursor} (ahead : here.SameUpToStop there)
    (opened : here.peek? 0 = some (.mark .leftParen)) :
    SameOutcome TypeExpr.unplaced here there (tupleType type start file here)
      (tupleType again start' other there) := by
  have inside := (Abreast.refl ahead).advance opened rfl
  rw [tupleType_apply, tupleType_apply]
  have nothing : ([] : List TupleElement).map TupleElement.unplaced =
      [].map TupleElement.unplaced := rfl
  have outcome := mirrors_loop (progresses_elementRound forward) (progresses_elementRound forward')
    (fun _ _ same => mirrors_elementRound mirrors same) nothing file other here.advance
    there.advance inside.same
  generalize loop [] (elementRound type) file here.advance = result at outcome ⊢
  generalize loop [] (elementRound again) other there.advance = result' at outcome ⊢
  cases outcome with
  | error abreast => exact .error (inside.trans abreast)
  | ok agrees abreast =>
      simp only [abreast.same.first]
      split
      · next closed =>
        refine .ok ?_ ((inside.trans abreast).advance closed rfl)
        rw [TypeExpr.unplaced_tuple, TypeExpr.unplaced_tuple, agrees]
      · exact .error (inside.trans abreast)

/-- A name is read alike if its parts are. -/
private theorem SameOutcome.namedBy {here there later later' : Cursor}
    (abreast : Abreast here there later later') (qualifier : Option String) (start start' : Span)
    {segments segments' : EStateM.Result Diagnostic Cursor (List NameSegment)} :
    SameOutcome (List.map NameSegment.unplaced) later later' segments segments' →
    SameOutcome TypeExpr.unplaced here there
      (match segments with
        | .error diagnostic final => .error diagnostic final
        | .ok segments final => .ok (.named qualifier segments (final.spanFrom start)) final)
      (match segments' with
        | .error diagnostic final => .error diagnostic final
        | .ok segments final => .ok (.named qualifier segments (final.spanFrom start')) final) := by
  intro outcome
  cases outcome with
  | error behind => exact .error (abreast.trans behind)
  | ok agrees behind =>
      refine .ok ?_ (abreast.trans behind)
      rw [TypeExpr.unplaced_named, TypeExpr.unplaced_named, agrees]

private theorem mirrors_namedType (mirrors : Mirrors TypeExpr.unplaced type again)
    (forward : Forward type) (forward' : Forward again) (start start' : Span)
    {file other : SourceFile} {here there : Cursor} (ahead : here.SameUpToStop there)
    {name : String} (named : here.peek? 0 = some (.ident name)) :
    SameOutcome TypeExpr.unplaced here there (namedType type start file here)
      (namedType again start' other there) := by
  have behindName := (Abreast.refl ahead).advance named rfl
  have segments {later later' : Cursor} (abreast : Abreast here there later later') :=
    mirrors_nameSegments mirrors forward forward' file other later later' abreast.same
  rw [namedType_apply, namedType_apply, ahead.first, ahead.second named rfl, named]
  by_cases qualified : here.peek? 1 = some (.mark .doubleColon)
  · rw [if_pos qualified, if_pos qualified]
    have colons : here.advance.peek? 0 = some (.mark .doubleColon) :=
      (peek?_advance named 0).trans qualified
    have abreast := behindName.advance colons rfl
    exact .namedBy abreast (some name) start start' (segments abreast)
  · rw [if_neg qualified, if_neg qualified]
    exact .namedBy (.refl ahead) none start start' (segments (.refl ahead))

end Types

section Suffixes

private theorem mirrors_rankRound {rank rank' : Nat} (same : id rank' = id rank) :
    Mirrors (stepView id) (rankRound rank) (rankRound rank') := by
  intro file other here there ahead
  rw [rankRound_apply, rankRound_apply, ahead.first]
  obtain rfl : rank' = rank := same
  split
  · next comma => exact .ok rfl ((Abreast.refl ahead).advance comma rfl)
  · exact .ok rfl (.refl ahead)

private theorem mirrors_suffixRound (start start' : Span) {head head' : TypeExpr}
    (same : head'.unplaced = head.unplaced) :
    Mirrors (stepView TypeExpr.unplaced) (suffixRound start head) (suffixRound start' head') := by
  intro file other here there ahead
  rw [suffixRound_apply, suffixRound_apply, ahead.first]
  by_cases question : here.peek? 0 = some (.mark .question)
  · rw [if_pos question, if_pos question]
    refine .ok ?_ ((Abreast.refl ahead).advance question rfl)
    simp only [stepView, TypeExpr.unplaced_nullable, same]
  rw [if_neg question, if_neg question]
  by_cases star : here.peek? 0 = some (.mark .star)
  · rw [if_pos star, if_pos star]
    refine .ok ?_ ((Abreast.refl ahead).advance star rfl)
    simp only [stepView, TypeExpr.unplaced_pointer, same]
  rw [if_neg star, if_neg star]
  by_cases opened : here.peek? 0 = some (.mark .leftBracket)
  · have inside := (Abreast.refl ahead).advance opened rfl
    rw [ahead.second opened rfl]
    by_cases begins : here.peek? 1 = some (.mark .rightBracket) ∨ here.peek? 1 = some (.mark .comma)
    · rw [if_pos ⟨opened, begins⟩, if_pos ⟨opened, begins⟩]
      have one : id 1 = id 1 := rfl
      have outcome := mirrors_loop progresses_rankRound progresses_rankRound
        (fun _ _ same => mirrors_rankRound same) one file other here.advance there.advance
        inside.same
      generalize loop 1 rankRound file here.advance = result at outcome ⊢
      generalize loop 1 rankRound other there.advance = result' at outcome ⊢
      cases outcome with
      | error abreast => exact .error (inside.trans abreast)
      | @ok rank rank' later later' agrees abreast =>
          obtain rfl : rank' = rank := agrees
          simp only [abreast.same.first]
          split
          · next closed =>
            refine .ok ?_ ((inside.trans abreast).advance closed rfl)
            simp only [stepView, TypeExpr.unplaced_array, same]
          · exact .error (inside.trans abreast)
    · rw [if_neg fun both => begins both.2, if_neg fun both => begins both.2]
      exact .ok (congrArg ForInStep.done same) (.refl ahead)
  · rw [if_neg fun both => opened both.1, if_neg fun both => opened both.1]
    exact .ok (congrArg ForInStep.done same) (.refl ahead)

private theorem mirrors_typeSuffixes (start start' : Span) {head head' : TypeExpr}
    (same : head'.unplaced = head.unplaced) :
    Mirrors TypeExpr.unplaced (typeSuffixes start head) (typeSuffixes start' head') :=
  mirrors_loop (progresses_suffixRound start) (progresses_suffixRound start')
    (fun _ _ same => mirrors_suffixRound start start' same) same

end Suffixes

/-- The suffixes behind a head are read alike if the head is. -/
private theorem SameOutcome.behindHead {file other : SourceFile} {here there : Cursor}
    {start start' : Span} {result result' : EStateM.Result Diagnostic Cursor TypeExpr} :
    SameOutcome TypeExpr.unplaced here there result result' →
    SameOutcome TypeExpr.unplaced here there
      (match result with
        | .error diagnostic later => .error diagnostic later
        | .ok head later => typeSuffixes start head file later)
      (match result' with
        | .error diagnostic later => .error diagnostic later
        | .ok head later => typeSuffixes start' head other later) := by
  intro outcome
  cases outcome with
  | error abreast => exact .error abreast
  | ok same abreast =>
      exact (mirrors_typeSuffixes _ _ same file other _ _ abreast.same).behind abreast

/-- Types are read alike, with any bound on how deep they nest. -/
theorem mirrors_typeWithin (depth : Nat) :
    Mirrors TypeExpr.unplaced (typeWithin depth) (typeWithin depth) := by
  induction depth with
  | zero =>
      intro file other here there ahead
      have failed (file : SourceFile) (cursor : Cursor) : typeWithin 0 file cursor =
          .error (cursor.unexpected file "type") cursor := failExpecting_apply file cursor "type"
      rw [failed, failed]
      exact .error (.refl ahead)
  | succ depth ih =>
      intro file other here there ahead
      have forward := forward_typeWithin depth
      rw [typeWithin_apply, typeWithin_apply, ahead.first]
      by_cases paren : here.peek? 0 = some (.mark .leftParen)
      · rw [if_pos paren, if_pos paren]
        exact (mirrors_tupleType ih forward forward _ _ ahead paren).behindHead
      rw [if_neg paren, if_neg paren]
      cases ident : (here.peek? 0).bind TokenKind.ident? with
      | none => exact .error (.refl ahead)
      | some name =>
          have named := peek?_eq_ident ident
          simp only []
          by_cases keyword : TypeExpr.keywords.contains name = true
          · rw [if_pos keyword, if_pos keyword]
            have passed := (Abreast.refl ahead).advance named rfl
            refine (mirrors_typeSuffixes _ _ ?_ file other _ _ passed.same).behind passed
            rw [TypeExpr.unplaced_predefined, TypeExpr.unplaced_predefined]
          · rw [if_neg keyword, if_neg keyword]
            exact (mirrors_namedType ih forward forward _ _ ahead named).behindHead

/-- A type is read alike in front of the same up to a semicolon or a brace. -/
theorem mirrors_type : Mirrors TypeExpr.unplaced type type := by
  intro file other here there ahead
  let depth := here.remaining.length + there.remaining.length + 1
  have enough : here.remaining.length < depth := by omega
  have enough' : there.remaining.length < depth := by omega
  rw [← typeWithin_eq_type enough, ← typeWithin_eq_type enough']
  exact mirrors_typeWithin depth file other here there ahead

end Parser

end ErrorAccessors
