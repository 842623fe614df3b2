/-
# Running a parser

What the primitives do at a cursor, what a sequence of parsers does, and what a
loop does.  No parser puts tokens back that were passed before it started, or
drops a diagnostic that was recorded before, which is what `Forward` says; the
loops of this parser use up a token in each round but the last, so the rounds
that they are allowed never run out.

Nothing here is about what is read.  The equations of this file are meant for
evaluating a run, forwards on known tokens and backwards from a known result.
-/

import ErrorAccessors.Parser.Skip
import ErrorAccessors.Parser.Type

namespace ErrorAccessors

namespace Token

/-- The token just passed behind some tokens. -/
def lastOf (previous : Option Token) : List Token → Option Token
  | [] => previous
  | token :: rest => lastOf (some token) rest

@[simp] theorem lastOf_nil (previous : Option Token) : lastOf previous [] = previous := rfl

@[simp] theorem lastOf_cons (previous : Option Token) (token : Token) (rest : List Token) :
    lastOf previous (token :: rest) = lastOf (some token) rest := rfl

@[simp] theorem lastOf_append (previous : Option Token) (first second : List Token) :
    lastOf previous (first ++ second) = lastOf (lastOf previous first) second := by
  induction first generalizing previous with
  | nil => rfl
  | cons token rest ih => exact ih (some token)

/-- The token just passed is the last of those passed, if there is one. -/
theorem lastOf_eq (previous : Option Token) (tokens : List Token) :
    lastOf previous tokens = tokens.getLast?.or previous := by
  induction tokens generalizing previous with
  | nil => rfl
  | cons token rest ih => rw [lastOf_cons, ih, List.getLast?_cons]; cases rest.getLast? <;> rfl

end Token

namespace Cursor

/-- A later cursor of the same reading: some tokens have been passed and some
errors recorded since the earlier one. -/
structure Reaches (earlier later : Cursor) : Prop where
  passed : ∃ tokens, earlier.remaining = tokens ++ later.remaining ∧
    later.previous = Token.lastOf earlier.previous tokens
  reported : ∃ errors, later.recorded = earlier.recorded ++ errors ∧
    ∀ diagnostic ∈ errors, diagnostic.isError = true

theorem Reaches.remaining {earlier later : Cursor} (reached : earlier.Reaches later) :
    later.remaining <:+ earlier.remaining := by
  obtain ⟨tokens, remaining, -⟩ := reached.passed
  exact ⟨tokens, remaining.symm⟩

theorem Reaches.recorded {earlier later : Cursor} (reached : earlier.Reaches later) :
    earlier.recorded <+: later.recorded := by
  obtain ⟨errors, recorded, -⟩ := reached.reported
  exact ⟨errors, recorded.symm⟩

/-- Some tokens are passed and nothing is recorded. -/
theorem Reaches.of_passed {earlier later : Cursor} (tokens : List Token)
    (remaining : earlier.remaining = tokens ++ later.remaining)
    (previous : later.previous = Token.lastOf earlier.previous tokens)
    (recorded : later.recorded = earlier.recorded) : earlier.Reaches later :=
  ⟨⟨tokens, remaining, previous⟩, [], by rw [recorded, List.append_nil], nofun⟩

/-- A reading may stop where it starts. -/
theorem Reaches.refl (cursor : Cursor) : cursor.Reaches cursor :=
  .of_passed [] rfl rfl rfl

/-- Readings can be continued. -/
theorem Reaches.trans {first second third : Cursor} (before : first.Reaches second)
    (behind : second.Reaches third) : first.Reaches third := by
  obtain ⟨⟨tokens, remaining, previous⟩, errors, recorded, areErrors⟩ := before
  obtain ⟨⟨others, remaining', previous'⟩, more, recorded', areErrors'⟩ := behind
  refine ⟨⟨tokens ++ others, ?_, ?_⟩, errors ++ more, ?_, ?_⟩
  · rw [remaining, remaining', List.append_assoc]
  · rw [previous', previous, Token.lastOf_append]
  · rw [recorded', recorded, List.append_assoc]
  · intro diagnostic member
    rcases List.mem_append.mp member with member | member
    · exact areErrors diagnostic member
    · exact areErrors' diagnostic member

/-- Tokens are only used up. -/
theorem Reaches.length_le {earlier later : Cursor} (reached : earlier.Reaches later) :
    later.remaining.length ≤ earlier.remaining.length :=
  reached.remaining.length_le

/-- Stepping over a token is a reading. -/
theorem reaches_advance (cursor : Cursor) : cursor.Reaches cursor.advance := by
  unfold advance
  split
  · exact .refl cursor
  · next token rest eq =>
    exact .of_passed [token] eq rfl rfl

@[simp] theorem peek?_zero_cons (previous : Option Token) (token : Token) (rest : List Token)
    (recorded : List Diagnostic) :
    (Cursor.mk previous (token :: rest) recorded).peek? 0 = some token.kind := rfl

@[simp] theorem peek?_one_cons (previous : Option Token) (token : Token) (rest : List Token)
    (recorded : List Diagnostic) :
    (Cursor.mk previous (token :: rest) recorded).peek? 1 = rest.head?.map (·.kind) := by
  cases rest <;> rfl

/-- What comes next is what the tokens that are left begin with. -/
theorem peek?_of_head {tokens : List Token} {kind : TokenKind}
    (head : tokens.head?.map (·.kind) = some kind) (previous : Option Token) (rest : List Token)
    (recorded : List Diagnostic) :
    (Cursor.mk previous (tokens ++ rest) recorded).peek? 0 = some kind := by
  cases tokens with
  | nil => cases head
  | cons token tokens => exact head

@[simp] theorem peek?_nil (previous : Option Token) (recorded : List Diagnostic) (ahead : Nat) :
    (Cursor.mk previous [] recorded).peek? ahead = none := rfl

@[simp] theorem advance_cons (previous : Option Token) (token : Token) (rest : List Token)
    (recorded : List Diagnostic) :
    (Cursor.mk previous (token :: rest) recorded).advance = ⟨some token, rest, recorded⟩ := rfl

/-- Where there is a next token, stepping over it uses up one token. -/
theorem length_advance {cursor : Cursor} {kind : TokenKind} (next : cursor.peek? 0 = some kind) :
    cursor.advance.remaining.length + 1 = cursor.remaining.length := by
  obtain ⟨previous, remaining, recorded⟩ := cursor
  cases remaining with
  | nil => simp at next
  | cons token rest => rfl

/-- The name that comes next is that of an identifier. -/
theorem peek?_eq_ident {cursor : Cursor} {ahead : Nat} {name : String}
    (named : (cursor.peek? ahead).bind TokenKind.ident? = some name) :
    cursor.peek? ahead = some (.ident name) := by
  obtain ⟨kind, next, isIdent⟩ := Option.bind_eq_some_iff.mp named
  cases kind with
  | ident other => rw [next, Option.some.inj isIdent]
  | _ => cases isIdent

/-- Behind the next token comes the second one. -/
theorem peek?_advance {cursor : Cursor} {kind : TokenKind} (next : cursor.peek? 0 = some kind)
    (ahead : Nat) : cursor.advance.peek? ahead = cursor.peek? (ahead + 1) := by
  obtain ⟨previous, remaining, recorded⟩ := cursor
  cases remaining with
  | nil => simp at next
  | cons token rest => simp [peek?]

/-- The next token is the one that a step passes. -/
theorem remaining_eq_cons {cursor : Cursor} {kind : TokenKind}
    (next : cursor.peek? 0 = some kind) :
    ∃ token, token.kind = kind ∧ cursor.remaining = token :: cursor.advance.remaining := by
  obtain ⟨previous, remaining, recorded⟩ := cursor
  cases remaining with
  | nil => simp at next
  | cons token rest => exact ⟨token, Option.some.inj next, rfl⟩

/-- The span of the next token, or the empty one at the end of the file. -/
def nextSpan (cursor : Cursor) (file : SourceFile) : Span :=
  match cursor.remaining with
  | token :: _ => token.span
  | [] => file.span file.size file.size

/-- The span from a start to the token just passed. -/
def spanFrom (cursor : Cursor) (start : Span) : Span :=
  match cursor.previous with
  | some token =>
    if start.start.offset ≤ token.span.stop.offset then start.merge token.span else start
  | none => start

/-- The diagnostic that says what was expected at a cursor. -/
def unexpected (cursor : Cursor) (file : SourceFile) (expected : String) : Diagnostic :=
  let (code, found) : DiagnosticCode × String :=
    match cursor.peek? 0 with
    | none => (.unexpectedEnd, "end of file")
    | some .openString => (.unterminatedLiteral, TokenKind.describe .openString)
    | some kind => (.unexpectedToken, kind.describe)
  .error code ("Expected " ++ expected ++ ", found " ++ found) (cursor.nextSpan file)

theorem isError_unexpected (cursor : Cursor) (file : SourceFile) (expected : String) :
    (cursor.unexpected file expected).isError = true := rfl

end Cursor

namespace Parser

section Evaluation

variable {α β : Type} (file : SourceFile) (cursor : Cursor)

/-- A sequence goes on where its first part stopped, unless that failed. -/
theorem bind_apply (parser : Parser α) (next : α → Parser β) :
    (parser >>= next) file cursor =
      match parser file cursor with
      | .ok value later => next value file later
      | .error diagnostic later => .error diagnostic later := by
  show EStateM.bind (parser file) (fun value => next value file) cursor = _
  unfold EStateM.bind
  cases parser file cursor <;> rfl

@[simp] theorem pure_apply (value : α) :
    (pure value : Parser α) file cursor = .ok value cursor := rfl

@[simp] theorem throw_apply (diagnostic : Diagnostic) :
    (throw diagnostic : Parser α) file cursor = .error diagnostic cursor := rfl

@[simp] theorem get_apply : (get : Parser Cursor) file cursor = .ok cursor cursor := rfl

@[simp] theorem set_apply (other : Cursor) :
    (set other : Parser PUnit) file cursor = .ok ⟨⟩ other := rfl

@[simp] theorem read_apply : (read : Parser SourceFile) file cursor = .ok file cursor := rfl

@[simp] theorem peek_apply : peek file cursor = .ok (cursor.peek? 0) cursor := rfl

@[simp] theorem peekSecond_apply : peekSecond file cursor = .ok (cursor.peek? 1) cursor := rfl

@[simp] theorem advance_apply : advance file cursor = .ok () cursor.advance := rfl

@[simp] theorem atMark_apply (mark : Mark) :
    atMark mark file cursor = .ok (cursor.peek? 0 == some (.mark mark)) cursor := rfl

@[simp] theorem secondIsMark_apply (mark : Mark) :
    secondIsMark mark file cursor = .ok (cursor.peek? 1 == some (.mark mark)) cursor := rfl

@[simp] theorem peekName_apply :
    peekName file cursor = .ok ((cursor.peek? 0).bind TokenKind.ident?) cursor := rfl

@[simp] theorem atIdent_apply :
    atIdent file cursor = .ok ((cursor.peek? 0).bind TokenKind.ident?).isSome cursor := rfl

@[simp] theorem secondIsIdent_apply :
    secondIsIdent file cursor = .ok ((cursor.peek? 1).any TokenKind.isIdent) cursor := rfl

@[simp] theorem atWord_apply (word : String) :
    atWord word file cursor =
      .ok ((cursor.peek? 0).bind TokenKind.ident? == some word) cursor := rfl

@[simp] theorem atEnd_apply : atEnd file cursor = .ok cursor.remaining.isEmpty cursor := rfl

@[simp] theorem record_apply (diagnostic : Diagnostic) :
    record diagnostic file cursor =
      .ok () { cursor with recorded := cursor.recorded ++ [diagnostic] } := rfl

@[simp] theorem nextSpan_apply :
    nextSpan file cursor = .ok (cursor.nextSpan file) cursor := by
  obtain ⟨previous, remaining, recorded⟩ := cursor
  cases remaining <;> rfl

@[simp] theorem spanFrom_apply (start : Span) :
    spanFrom start file cursor = .ok (cursor.spanFrom start) cursor := by
  obtain ⟨previous, remaining, recorded⟩ := cursor
  cases previous with
  | none => rfl
  | some token =>
      simp only [spanFrom, Cursor.spanFrom, bind_apply, get_apply]
      split <;> rfl

@[simp] theorem unexpected_apply (expected : String) :
    unexpected expected file cursor = .ok (cursor.unexpected file expected) cursor := by
  simp only [unexpected, bind_apply, peek_apply, nextSpan_apply]
  rfl

@[simp] theorem failExpecting_apply (expected : String) :
    (failExpecting expected : Parser α) file cursor =
      .error (cursor.unexpected file expected) cursor := by
  simp only [failExpecting, bind_apply, unexpected_apply]
  rfl

theorem eat_apply (mark : Mark) :
    eat mark file cursor =
      if cursor.peek? 0 = some (.mark mark) then .ok true cursor.advance
      else .ok false cursor := by
  simp only [eat, bind_apply, atMark_apply]
  by_cases next : cursor.peek? 0 = some (.mark mark)
  · simp [next, bind_apply]
  · simp [next]

theorem ite_run {condition : Prop} [Decidable condition] (first second : Parser α) :
    (if condition then first else second) file cursor =
      if condition then first file cursor else second file cursor := by
  split <;> rfl

omit file cursor in
/-- What comes behind a choice comes behind both sides of it. -/
theorem ite_bind {condition : Prop} [Decidable condition] (first second : Parser α)
    (next : α → Parser β) :
    (if condition then first else second) >>= next =
      if condition then first >>= next else second >>= next := by
  split <;> rfl

/-- Going on behind a mark that may come next. -/
theorem eat_bind_apply (mark : Mark) (next : Bool → Parser α) :
    (eat mark >>= next) file cursor =
      if cursor.peek? 0 = some (.mark mark) then next true file cursor.advance
      else next false file cursor := by
  rw [bind_apply, eat_apply]
  by_cases comes : cursor.peek? 0 = some (.mark mark)
  · rw [if_pos comes, if_pos comes]
  · rw [if_neg comes, if_neg comes]

theorem eatWord_apply (word : String) :
    eatWord word file cursor =
      if (cursor.peek? 0).bind TokenKind.ident? = some word then .ok true cursor.advance
      else .ok false cursor := by
  simp only [eatWord, bind_apply, atWord_apply]
  by_cases next : (cursor.peek? 0).bind TokenKind.ident? = some word
  · simp [next, bind_apply]
  · simp [next]

theorem expect_apply (mark : Mark) :
    expect mark file cursor =
      if cursor.peek? 0 = some (.mark mark) then .ok () cursor.advance
      else .error (cursor.unexpected file ("`" ++ mark.text ++ "`")) cursor := by
  simp only [expect, bind_apply, eat_apply]
  by_cases next : cursor.peek? 0 = some (.mark mark)
  · simp [next]
  · simp [next]

theorem expectIdent_apply :
    expectIdent file cursor =
      match (cursor.peek? 0).bind TokenKind.ident? with
      | some name => .ok (name, cursor.nextSpan file) cursor.advance
      | none => .error (cursor.unexpected file "identifier") cursor := by
  simp only [expectIdent, bind_apply, peekName_apply]
  cases (cursor.peek? 0).bind TokenKind.ident? with
  | none => exact failExpecting_apply file cursor "identifier"
  | some name => simp only [bind_apply, nextSpan_apply, advance_apply, pure_apply]

theorem attempt_apply (parser : Parser α) :
    attempt parser file cursor =
      match parser file cursor with
      | .ok value later => .ok (some value) later
      | .error _ later => .ok none later := rfl

end Evaluation

section Loops

variable {σ : Type} (step : σ → Parser (ForInStep σ)) (file : SourceFile)

/-- Every round that does not leave the loop uses up a token. -/
def Progresses : Prop :=
  ∀ (file : SourceFile) (state next : σ) (cursor later : Cursor),
    step state file cursor = .ok (.yield next) later →
      later.remaining.length < cursor.remaining.length

variable {step}

/-- How many rounds a loop is allowed does not matter as long as there are more
than tokens. -/
theorem loopWithin_eq_loopWithin (progress : Progresses step) {first second : Nat} {state : σ}
    {cursor : Cursor} (enoughFirst : cursor.remaining.length < first)
    (enoughSecond : cursor.remaining.length < second) :
    loopWithin step first state file cursor = loopWithin step second state file cursor := by
  induction first generalizing second state cursor with
  | zero => exact absurd enoughFirst (Nat.not_lt_zero _)
  | succ first ih =>
      obtain ⟨second, rfl⟩ : ∃ less, second = less + 1 :=
        ⟨second - 1, by omega⟩
      simp only [loopWithin, bind_apply]
      cases round : step state file cursor with
      | error diagnostic later => rfl
      | ok outcome later =>
          cases outcome with
          | done result => rfl
          | yield next =>
              have less := progress file state next cursor later round
              exact ih (by omega) (by omega)

/-- A loop that makes progress is its first round, followed by the same loop
unless that round leaves it. -/
theorem loop_apply (progress : Progresses step) (state : σ) (cursor : Cursor) :
    loop state step file cursor =
      match step state file cursor with
      | .ok (.done result) later => .ok result later
      | .ok (.yield next) later => loop next step file later
      | .error diagnostic later => .error diagnostic later := by
  have allowed : loop state step file cursor =
      loopWithin step (cursor.remaining.length + 1) state file cursor := rfl
  rw [allowed]
  simp only [loopWithin, bind_apply]
  cases round : step state file cursor with
  | error diagnostic later => rfl
  | ok outcome later =>
      cases outcome with
      | done result => rfl
      | yield next =>
          have less := progress file state next cursor later round
          exact loopWithin_eq_loopWithin file progress less (Nat.lt_succ_self _)

/-- A round that goes on is followed by the rest of the loop. -/
theorem loop_of_yield (progress : Progresses step) {state next : σ} {cursor later : Cursor}
    (round : step state file cursor = .ok (.yield next) later) :
    loop state step file cursor = loop next step file later := by
  rw [loop_apply file progress, round]

/-- A round that is done ends the loop. -/
theorem loop_of_done (progress : Progresses step) {state result : σ} {cursor later : Cursor}
    (round : step state file cursor = .ok (.done result) later) :
    loop state step file cursor = .ok result later := by
  rw [loop_apply file progress, round]

/-- A round that fails makes the loop fail. -/
theorem loop_of_error (progress : Progresses step) {state : σ} {cursor later : Cursor}
    {diagnostic : Diagnostic} (round : step state file cursor = .error diagnostic later) :
    loop state step file cursor = .error diagnostic later := by
  rw [loop_apply file progress, round]

/-- What every round keeps, and what a last round makes of it, holds at the end of
the loop. -/
theorem loop_induction (progress : Progresses step) {keeps : σ → Cursor → Prop}
    {ends : σ → Cursor → Prop}
    (round : ∀ state cursor later outcome, keeps state cursor →
      step state file cursor = .ok outcome later →
        match outcome with
        | .yield next => keeps next later
        | .done result => ends result later)
    {state result : σ} {cursor later : Cursor} (start : keeps state cursor)
    (run : loop state step file cursor = .ok result later) : ends result later := by
  induction length : cursor.remaining.length using Nat.strongRecOn generalizing state cursor with
  | ind size ih =>
  rw [loop_apply file progress] at run
  cases first : step state file cursor with
  | error diagnostic reached => simp [first] at run
  | ok outcome reached =>
      have kept := round state cursor reached outcome start first
      cases outcome with
      | done value =>
          simp only [first] at run
          cases run
          exact kept
      | yield next =>
          simp only [first] at run
          have less := progress file state next cursor reached first
          exact ih reached.remaining.length (by omega) kept run rfl

/-- A loop whose rounds never fail does not fail. -/
theorem loop_ok (progress : Progresses step)
    (round : ∀ state cursor, ∃ outcome later, step state file cursor = .ok outcome later)
    (state : σ) (cursor : Cursor) :
    ∃ result later, loop state step file cursor = .ok result later := by
  induction length : cursor.remaining.length using Nat.strongRecOn generalizing state cursor with
  | ind size ih =>
  obtain ⟨outcome, reached, run⟩ := round state cursor
  cases outcome with
  | done result => exact ⟨result, reached, loop_of_done file progress run⟩
  | yield next =>
      have fewer := progress file state next cursor reached run
      obtain ⟨result, later, rest⟩ := ih reached.remaining.length (by omega) next reached rfl
      exact ⟨result, later, (loop_of_yield file progress run).trans rest⟩

end Loops

section Forward

variable {α β σ : Type}

/-- A parser puts no tokens back and drops no diagnostics, whether it succeeds or
fails, and it fails with an error. -/
def Forward (parser : Parser α) : Prop :=
  ∀ (file : SourceFile) (cursor : Cursor),
    match parser file cursor with
    | .ok _ later => cursor.Reaches later
    | .error diagnostic later => cursor.Reaches later ∧ diagnostic.isError = true

theorem Forward.of_ok {parser : Parser α} (forward : Forward parser) {file : SourceFile}
    {cursor later : Cursor} {value : α} (run : parser file cursor = .ok value later) :
    cursor.Reaches later := by
  have reached := forward file cursor
  rw [run] at reached
  exact reached

theorem Forward.of_error {parser : Parser α} (forward : Forward parser) {file : SourceFile}
    {cursor later : Cursor} {diagnostic : Diagnostic}
    (run : parser file cursor = .error diagnostic later) :
    cursor.Reaches later ∧ diagnostic.isError = true := by
  have reached := forward file cursor
  rw [run] at reached
  exact reached

/-- A parser that only looks goes forward. -/
theorem Forward.of_look {parser : Parser α} (value : SourceFile → Cursor → α)
    (look : ∀ file cursor, parser file cursor = .ok (value file cursor) cursor) :
    Forward parser := by
  intro file cursor
  rw [look]
  exact .refl cursor

theorem forward_pure (value : α) : Forward (pure value) :=
  .of_look (fun _ _ => value) fun _ _ => rfl

theorem Forward.bind {parser : Parser α} {next : α → Parser β} (first : Forward parser)
    (second : ∀ value, Forward (next value)) : Forward (parser >>= next) := by
  intro file cursor
  rw [bind_apply]
  cases run : parser file cursor with
  | error diagnostic later => exact first.of_error run
  | ok value later =>
      have before := first.of_ok run
      have behind := second value file later
      cases rest : next value file later with
      | ok result final =>
          rw [rest] at behind
          simp only [rest]
          exact before.trans behind
      | error diagnostic final =>
          rw [rest] at behind
          simp only [rest]
          exact ⟨before.trans behind.1, behind.2⟩

/-- Looking before reading does not change where the reading goes. -/
theorem Forward.behind_look {parser : Parser α} {next : α → Parser β}
    {value : SourceFile → Cursor → α}
    (look : ∀ file cursor, parser file cursor = .ok (value file cursor) cursor)
    (forward : ∀ value, Forward (next value)) : Forward (parser >>= next) :=
  (Forward.of_look value look).bind forward

theorem Forward.ite {condition : Prop} [Decidable condition] {first second : Parser α}
    (holds : Forward first) (fails : Forward second) :
    Forward (if condition then first else second) := by
  split
  · exact holds
  · exact fails

theorem forward_advance : Forward advance :=
  fun _ cursor => cursor.reaches_advance

theorem forward_failExpecting (expected : String) :
    Forward (failExpecting expected : Parser α) := by
  intro file cursor
  rw [failExpecting_apply]
  exact ⟨.refl cursor, cursor.isError_unexpected file expected⟩

theorem forward_eat (mark : Mark) : Forward (eat mark) := by
  intro file cursor
  rw [eat_apply]
  by_cases next : cursor.peek? 0 = some (.mark mark)
  · rw [if_pos next]
    exact cursor.reaches_advance
  · rw [if_neg next]
    exact .refl cursor

theorem forward_expect (mark : Mark) : Forward (expect mark) := by
  intro file cursor
  rw [expect_apply]
  by_cases next : cursor.peek? 0 = some (.mark mark)
  · rw [if_pos next]
    exact cursor.reaches_advance
  · rw [if_neg next]
    exact ⟨.refl cursor, cursor.isError_unexpected file _⟩

theorem forward_expectIdent : Forward expectIdent := by
  intro file cursor
  rw [expectIdent_apply]
  cases (cursor.peek? 0).bind TokenKind.ident? with
  | none => exact ⟨.refl cursor, cursor.isError_unexpected file _⟩
  | some name => exact cursor.reaches_advance

theorem forward_attempt {parser : Parser α} (forward : Forward parser) :
    Forward (attempt parser) := by
  intro file cursor
  rw [attempt_apply]
  cases run : parser file cursor with
  | ok value later => exact forward.of_ok run
  | error diagnostic later => exact (forward.of_error run).1

theorem forward_loopWithin {step : σ → Parser (ForInStep σ)}
    (forward : ∀ state, Forward (step state)) (rounds : Nat) (state : σ) :
    Forward (loopWithin step rounds state) := by
  induction rounds generalizing state with
  | zero => exact forward_pure state
  | succ rounds ih =>
      refine (forward state).bind fun outcome => ?_
      cases outcome with
      | done result => exact forward_pure result
      | yield next => exact ih next

theorem forward_loop {step : σ → Parser (ForInStep σ)}
    (forward : ∀ state, Forward (step state)) (state : σ) : Forward (loop state step) :=
  fun file cursor => forward_loopWithin forward _ state file cursor

/-- Two loops agree at a cursor if their rounds do from there on. -/
theorem loop_congr {first second : σ → Parser (ForInStep σ)}
    (forward : ∀ state, Forward (first state)) {file : SourceFile} {bound : Nat}
    (agree : ∀ state (cursor : Cursor), cursor.remaining.length < bound →
      first state file cursor = second state file cursor)
    (state : σ) {cursor : Cursor} (within : cursor.remaining.length < bound) :
    loop state first file cursor = loop state second file cursor := by
  have rounds (count : Nat) (state : σ) (cursor : Cursor)
      (within : cursor.remaining.length < bound) :
      loopWithin first count state file cursor = loopWithin second count state file cursor := by
    induction count generalizing state cursor with
    | zero => rfl
    | succ count ih =>
        simp only [loopWithin, bind_apply]
        rw [← agree state cursor within]
        cases round : first state file cursor with
        | error diagnostic later => rfl
        | ok outcome later =>
            have reached := ((forward state).of_ok round).length_le
            cases outcome with
            | done result => rfl
            | yield next => exact ih next later (by omega)
  exact rounds _ state cursor within

end Forward

section Progress

variable {α β σ : Type}

/-- A parser that succeeds has used up a token. -/
def Uses (parser : Parser α) : Prop :=
  ∀ (file : SourceFile) (cursor later : Cursor) (value : α),
    parser file cursor = .ok value later → later.remaining.length < cursor.remaining.length

/-- A round that goes on has used up a token. -/
def UsesToGoOn (round : Parser (ForInStep σ)) : Prop :=
  ∀ (file : SourceFile) (cursor later : Cursor) (next : σ),
    round file cursor = .ok (.yield next) later →
      later.remaining.length < cursor.remaining.length

variable {parser : Parser α} {next : α → Parser β} {rounds : α → Parser (ForInStep σ)}

theorem progresses_of_usesToGoOn {step : σ → Parser (ForInStep σ)}
    (uses : ∀ state, UsesToGoOn (step state)) : Progresses step :=
  fun file state next cursor later round => uses state file cursor later next round

theorem Uses.bind (uses : Uses parser) (forward : ∀ value, Forward (next value)) :
    Uses (parser >>= next) := by
  intro file cursor later value run
  rw [bind_apply] at run
  cases first : parser file cursor with
  | error diagnostic middle => simp [first] at run
  | ok value middle =>
      simp only [first] at run
      exact Nat.lt_of_le_of_lt ((forward value).of_ok run).length_le (uses _ _ _ _ first)

theorem Uses.behind (forward : Forward parser) (uses : ∀ value, Uses (next value)) :
    Uses (parser >>= next) := by
  intro file cursor later value run
  rw [bind_apply] at run
  cases first : parser file cursor with
  | error diagnostic middle => simp [first] at run
  | ok value middle =>
      simp only [first] at run
      exact Nat.lt_of_lt_of_le (uses value _ _ _ _ run) (forward.of_ok first).length_le

theorem uses_expect (mark : Mark) : Uses (expect mark) := by
  intro file cursor later value run
  rw [expect_apply] at run
  by_cases comes : cursor.peek? 0 = some (.mark mark)
  · rw [if_pos comes] at run
    cases run
    have := Cursor.length_advance comes
    omega
  · rw [if_neg comes] at run
    cases run

theorem uses_expectIdent : Uses expectIdent := by
  intro file cursor later value run
  rw [expectIdent_apply] at run
  cases named : (cursor.peek? 0).bind TokenKind.ident? with
  | none => simp [named] at run
  | some name =>
      simp only [named] at run
      cases run
      have := Cursor.length_advance (Cursor.peek?_eq_ident named)
      omega

theorem Uses.usesToGoOn {round : Parser (ForInStep σ)} (uses : Uses round) : UsesToGoOn round :=
  fun file cursor later _ run => uses file cursor later _ run

theorem usesToGoOn_done (state : σ) : UsesToGoOn (pure (.done state)) := by
  intro _ _ _ _ run
  cases run

theorem UsesToGoOn.behind (forward : Forward parser) (uses : ∀ value, UsesToGoOn (rounds value)) :
    UsesToGoOn (parser >>= rounds) := by
  intro file cursor later next run
  rw [bind_apply] at run
  cases first : parser file cursor with
  | error diagnostic middle => simp [first] at run
  | ok value middle =>
      simp only [first] at run
      exact Nat.lt_of_lt_of_le (uses value _ _ _ _ run) (forward.of_ok first).length_le

theorem UsesToGoOn.ite {condition : Prop} [Decidable condition]
    {first second : Parser (ForInStep σ)} (holds : UsesToGoOn first) (fails : UsesToGoOn second) :
    UsesToGoOn (if condition then first else second) := by
  split
  · exact holds
  · exact fails

/-- A round that goes on behind a mark only has used up the mark. -/
theorem usesToGoOn_eat (mark : Mark) {first second : Parser (ForInStep σ)}
    (holds : Forward first) (fails : UsesToGoOn second) :
    UsesToGoOn (eat mark >>= fun eaten => if eaten = true then first else second) := by
  intro file cursor later next run
  rw [eat_bind_apply] at run
  by_cases comes : cursor.peek? 0 = some (.mark mark)
  · rw [if_pos comes, if_pos rfl] at run
    have := Cursor.length_advance comes
    have := (holds.of_ok run).length_le
    omega
  · rw [if_neg comes, if_neg Bool.false_ne_true] at run
    exact fails _ _ _ _ run

end Progress

end Parser

end ErrorAccessors
