/-
# Laying out parts

A reader that stands in the middle of a file has passed some of its tokens.  What it reads
from there on stands between the next token and the token that it has passed last when it
is done.  Parts that are read one after the other are therefore laid out in a row, and a
part that is made of them covers just the tokens that were passed for it.

A reader may give up on some tokens and go back, or skip them.  Nothing has to be known
about that, since everything that has been laid out so far stays in front of it.
-/

import ErrorAccessors.Proofs.ProperOutline
import ErrorAccessors.Proofs.SourcePositions
import ErrorAccessors.Proofs.SpanTree
import ErrorAccessors.Proofs.TokenStream

namespace ErrorAccessors

/-- The merged span of two of which the second one starts and stops behind the first. -/
theorem SourceFile.merge_span {file : SourceFile} {start stop other later : Nat}
    (starts : start ≤ other) (stops : stop ≤ later) :
    (file.span start stop).merge (file.span other later) = file.span start later := by
  rw [merge_span_span, Nat.min_eq_left starts, Nat.max_eq_right stops]

namespace Cursor

/-- A cursor stands between the tokens of a file. -/
def Stands (file : SourceFile) (cursor : Cursor) : Prop :=
  ∃ passed, Token.tokens file = passed ++ cursor.remaining ∧ cursor.previous = passed.getLast?

/-- Where the next token begins, or the file ends. -/
def begins (file : SourceFile) (cursor : Cursor) : Nat := (cursor.nextSpan file).start.offset

/-- Where the token just passed ends. -/
def ended (cursor : Cursor) : Nat := (cursor.previous.map (·.span.stop.offset)).getD 0

/-- Some token was passed between two cursors. -/
def IsBefore (here later : Cursor) : Prop := later.remaining.length < here.remaining.length

variable {file : SourceFile} {here cursor later : Cursor}

theorem IsBefore.of_reaches (moved : here.IsBefore cursor) (reached : cursor.Reaches later) :
    here.IsBefore later :=
  Nat.lt_of_le_of_lt reached.length_le moved

theorem Reaches.moved (reached : here.Reaches cursor) (moved : cursor.IsBefore later) :
    here.IsBefore later :=
  Nat.lt_of_lt_of_le moved reached.length_le

namespace Stands

theorem of_reaches (stands : cursor.Stands file) (reached : cursor.Reaches later) :
    later.Stands file := by
  obtain ⟨passed, isSplit, isLast⟩ := stands
  obtain ⟨⟨tokens, remaining, previous⟩, -⟩ := reached
  refine ⟨passed ++ tokens, by rw [isSplit, remaining, List.append_assoc], ?_⟩
  rw [previous, Token.lastOf_eq, isLast, List.getLast?_append]

/-- The token just passed ends in front of the next one, and both places are in the file. -/
theorem places (stands : cursor.Stands file) :
    file.IsPlace cursor.ended ∧ file.IsPlace (cursor.begins file) ∧
      cursor.ended ≤ cursor.begins file := by
  obtain ⟨passed, isSplit, isLast⟩ := stands
  obtain ⟨before, gap, rest, isText, atStop, -, atEnd, next⟩ := Token.exists_gap isSplit
  have isEnded : Text.byteLength before = cursor.ended := by
    rw [atStop, ended, isLast]
    rfl
  have isBegun : Text.byteLength (before ++ gap) = cursor.begins file := by
    rw [begins, nextSpan]
    cases remaining : cursor.remaining with
    | nil =>
        rw [atEnd remaining, List.append_nil] at isText
        rw [← isText, ← Text.utf8ByteSize_eq]
        rfl
    | cons token more =>
        obtain ⟨chunk, after, -, -, -, isSpan⟩ := next token (by rw [remaining]; rfl)
        show _ = token.span.start.offset
        rw [isSpan]
        rfl
  refine ⟨⟨before, gap ++ rest, isText, isEnded⟩, ⟨before ++ gap, rest, ?_, isBegun⟩, ?_⟩
  · rw [isText, List.append_assoc]
  · rw [← isEnded, ← isBegun, Text.byteLength_append]
    exact Nat.le_add_right _ _

/-- A token that comes next is one of the file. -/
theorem mem_tokens (stands : cursor.Stands file) {token : Token}
    (member : token ∈ cursor.remaining) :
    token ∈ Token.tokens file := by
  obtain ⟨passed, isSplit, -⟩ := stands
  rw [isSplit]
  exact List.mem_append_right _ member

/-- A token has the lines and columns of its places. -/
theorem exists_span (stands : cursor.Stands file) {token : Token}
    (member : token ∈ cursor.remaining) : ∃ start stop, token.span = file.span start stop := by
  obtain ⟨before, covered, after, -, -, isSpan⟩ := Token.covers_of_mem (stands.mem_tokens member)
  exact ⟨_, _, isSpan⟩

/-- The tokens that are left stand in order. -/
theorem inOrder (stands : cursor.Stands file) : Token.InOrder cursor.remaining := by
  obtain ⟨passed, isSplit, -⟩ := stands
  have ordered := Token.inOrder_tokens file
  rw [isSplit] at ordered
  exact ⟨fun token member => ordered.nonempty token (List.mem_append_right _ member),
    (List.pairwise_append.mp ordered.apart).2.1⟩

/-- The span from the next token to the one passed last. -/
theorem spanFrom_eq (stands : cursor.Stands file) (reached : cursor.Reaches later)
    (moved : cursor.IsBefore later) :
    later.spanFrom (cursor.nextSpan file) = file.span (cursor.begins file) later.ended ∧
      cursor.begins file < later.ended := by
  obtain ⟨⟨tokens, remaining, previous⟩, -⟩ := reached
  cases tokens with
  | nil =>
      rw [IsBefore, remaining] at moved
      exact absurd moved (Nat.lt_irrefl _)
  | cons token tokens =>
      obtain ⟨last, isLast⟩ : ∃ last, (token :: tokens).getLast? = some last :=
        ⟨_, List.getLast?_eq_some_getLast (List.cons_ne_nil _ _)⟩
      rw [Token.lastOf_eq, isLast, Option.some_or] at previous
      have inLast : last ∈ token :: tokens := List.mem_of_getLast? isLast
      have ordered := stands.inOrder
      rw [remaining, List.cons_append] at ordered
      have less := ordered.nonempty token List.mem_cons_self
      have inRemaining {other : Token} (member : other ∈ token :: tokens) :
          other ∈ cursor.remaining := by
        rw [remaining]
        exact List.mem_append_left _ member
      -- the last token is the first one or stands behind it
      have within : token.span.start.offset ≤ last.span.start.offset ∧
          token.span.stop.offset ≤ last.span.stop.offset := by
        rcases List.mem_cons.mp inLast with rfl | inTokens
        · exact ⟨Nat.le_refl _, Nat.le_refl _⟩
        · have behind :=
            (List.pairwise_cons.mp ordered.apart).1 last (List.mem_append_left _ inTokens)
          have lessLast := ordered.nonempty last
            (List.mem_cons_of_mem _ (List.mem_append_left _ inTokens))
          omega
      have isNext : cursor.nextSpan file = token.span := by rw [nextSpan, remaining]; rfl
      have isEnded : later.ended = last.span.stop.offset := by rw [ended, previous]; rfl
      obtain ⟨start, stop, isToken⟩ := stands.exists_span (inRemaining List.mem_cons_self)
      obtain ⟨lastStart, lastStop, isLastSpan⟩ := stands.exists_span (inRemaining inLast)
      rw [begins, isNext, isEnded, spanFrom, previous]
      simp only [isToken, isLastSpan, SourceFile.span, SourceFile.position_offset] at less within ⊢
      have reaches : start < lastStop := Nat.lt_of_lt_of_le less within.2
      refine ⟨?_, reaches⟩
      rw [if_pos (Nat.le_of_lt reaches)]
      exact SourceFile.merge_span within.1 within.2

end Stands

/-- What was passed before stays behind the reader. -/
theorem Reaches.ended_le (reached : cursor.Reaches later) (stands : cursor.Stands file) :
    cursor.ended ≤ later.ended := by
  obtain ⟨⟨tokens, remaining, previous⟩, reported⟩ := reached
  cases tokens with
  | nil => rw [ended, ended, previous, Token.lastOf_nil]
  | cons token tokens =>
      have moved : cursor.IsBefore later := by
        rw [IsBefore, remaining, List.cons_append, List.length_cons, List.length_append]
        omega
      have less := (stands.spanFrom_eq ⟨⟨_, remaining, previous⟩, reported⟩ moved).2
      exact Nat.le_of_lt (Nat.lt_of_le_of_lt stands.places.2.2 less)

/-- What comes next stays in front of the reader, or has been passed. -/
theorem Reaches.begins_le (reached : cursor.Reaches later) (stands : cursor.Stands file) :
    cursor.begins file ≤ later.begins file := by
  obtain ⟨⟨tokens, remaining, previous⟩, reported⟩ := reached
  cases tokens with
  | nil => rw [begins, begins, nextSpan, nextSpan, remaining, List.nil_append]
  | cons token tokens =>
      have moved : cursor.IsBefore later := by
        rw [IsBefore, remaining, List.cons_append, List.length_cons, List.length_append]
        omega
      have reached : cursor.Reaches later := ⟨⟨_, remaining, previous⟩, reported⟩
      exact Nat.le_of_lt (Nat.lt_of_lt_of_le (stands.spanFrom_eq reached moved).2
        (stands.of_reaches reached).places.2.2)

end Cursor

open SpanTree

/-- Between two cursors some parts have been laid out in a row. -/
structure LaidTo (file : SourceFile) (here : Cursor) (row : List SpanTree) (cursor : Cursor) :
    Prop where
  stands : here.Stands file
  reached : here.Reaches cursor
  coherent : ∀ tree ∈ row, tree.Coherent file
  behind : ∀ tree ∈ row, here.begins file ≤ tree.span.start.offset
  before : ∀ tree ∈ row, tree.span.stop.offset ≤ cursor.ended
  apart : row.Pairwise fun tree later => tree.span.Precedes later.span

/-- Some parts have been laid out, and some token was passed. -/
structure LaidPast (file : SourceFile) (here : Cursor) (row : List SpanTree) (cursor : Cursor) :
    Prop extends LaidTo file here row cursor where
  moved : here.IsBefore cursor

variable {file : SourceFile} {here cursor later : Cursor} {row part more : List SpanTree}

namespace LaidTo

/-- Nothing has been laid out where reading begins. -/
theorem nothing (stands : here.Stands file) : LaidTo file here [] here :=
  ⟨stands, .refl here, List.forall_mem_nil _, List.forall_mem_nil _, List.forall_mem_nil _, .nil⟩

/-- What has been laid out stays in its place. -/
theorem reach (laid : LaidTo file here row cursor) (reached : cursor.Reaches later) :
    LaidTo file here row later :=
  { laid with
    reached := laid.reached.trans reached
    before := fun tree member => Nat.le_trans (laid.before tree member)
      (reached.ended_le (laid.stands.of_reaches laid.reached)) }

/-- Some of the parts may be forgotten. -/
theorem of_sublist (laid : LaidTo file here row cursor) (fewer : part.Sublist row) :
    LaidTo file here part cursor :=
  { laid with
    coherent := fun tree member => laid.coherent tree (fewer.subset member)
    behind := fun tree member => laid.behind tree (fewer.subset member)
    before := fun tree member => laid.before tree (fewer.subset member)
    apart := laid.apart.sublist fewer }

/-- Parts that are laid out one after the other form one row. -/
theorem append (laid : LaidTo file here row cursor) (next : LaidTo file cursor more later) :
    LaidTo file here (row ++ more) later := by
  have went := laid.reach next.reached
  have between := next.stands.places.2.2
  refine ⟨laid.stands, went.reached, List.forall_mem_append.mpr ⟨laid.coherent, next.coherent⟩,
    List.forall_mem_append.mpr ⟨laid.behind, fun tree member => ?_⟩,
    List.forall_mem_append.mpr ⟨went.before, next.before⟩,
    List.pairwise_append.mpr ⟨laid.apart, next.apart, fun tree member other inMore => ?_⟩⟩
  · exact Nat.le_trans (laid.reached.begins_le laid.stands) (next.behind tree member)
  · exact Nat.le_trans (laid.before tree member) (Nat.le_trans between (next.behind other inMore))

theorem past (laid : LaidTo file here row cursor) (next : LaidPast file cursor more later) :
    LaidPast file here (row ++ more) later :=
  ⟨laid.append next.toLaidTo, laid.reached.moved next.moved⟩

/-- An identifier is a word. -/
theorem word (stands : cursor.Stands file) {name : String}
    (isName : cursor.peek? 0 = some (.ident name)) :
    LaidPast file cursor [.word (cursor.nextSpan file) name] cursor.advance := by
  obtain ⟨token, isIdent, remaining⟩ := Cursor.remaining_eq_cons isName
  have isToken : token ∈ cursor.remaining := by
    rw [remaining]
    exact List.mem_cons_self
  have isNext : cursor.nextSpan file = token.span := by rw [Cursor.nextSpan, remaining]
  have moved : cursor.IsBefore cursor.advance := by
    rw [Cursor.IsBefore, remaining]
    exact Nat.lt_succ_self _
  have reached := cursor.reaches_advance
  have isEnded : cursor.advance.ended = token.span.stop.offset := by
    rw [Cursor.ended, Cursor.advance, remaining]
    rfl
  have less := stands.inOrder.nonempty token isToken
  obtain ⟨start, stop, isSpan⟩ := stands.exists_span isToken
  have isOf : token.span.IsOf file := by
    refine ⟨by rw [isSpan]; rfl, Nat.le_of_lt less, ?_, ?_⟩
    · rw [← isNext]
      exact stands.places.2.1
    · rw [← isEnded]
      exact (stands.of_reaches reached).places.1
  have spelled := Token.slice?_of_ident (stands.mem_tokens isToken) isIdent
  rw [isNext]
  refine ⟨⟨stands, reached, List.forall_mem_singleton.mpr (.word isOf less spelled),
    List.forall_mem_singleton.mpr ?_, List.forall_mem_singleton.mpr ?_,
    List.pairwise_singleton _ _⟩, moved⟩
  · rw [Cursor.begins, isNext]
    exact Nat.le_refl _
  · rw [isEnded]
    exact Nat.le_refl _

end LaidTo

namespace LaidPast

theorem reach (laid : LaidPast file here row cursor) (reached : cursor.Reaches later) :
    LaidPast file here row later :=
  ⟨laid.toLaidTo.reach reached, laid.moved.of_reaches reached⟩

theorem of_sublist (laid : LaidPast file here row cursor) (fewer : part.Sublist row) :
    LaidPast file here part cursor :=
  ⟨laid.toLaidTo.of_sublist fewer, laid.moved⟩

/-- Parts that have been laid out in rows are the inside of one part, which covers all tokens
that were passed. -/
theorem node {rows : List (List SpanTree)} (stands : here.Stands file)
    (reached : here.Reaches later) (moved : here.IsBefore later)
    (laid : ∀ row ∈ rows, LaidTo file here row later) :
    LaidPast file here [.node (later.spanFrom (here.nextSpan file)) rows] later := by
  obtain ⟨isSpan, less⟩ := stands.spanFrom_eq reached moved
  have isOf : (file.span (here.begins file) later.ended).IsOf file :=
    ⟨rfl, Nat.le_of_lt less, stands.places.2.1, (stands.of_reaches reached).places.1⟩
  rw [isSpan]
  refine ⟨⟨stands, reached, List.forall_mem_singleton.mpr ?_,
    List.forall_mem_singleton.mpr (Nat.le_refl _), List.forall_mem_singleton.mpr (Nat.le_refl _),
    List.pairwise_singleton _ _⟩, moved⟩
  exact .node isOf (fun row member => (laid row member).coherent)
    (fun row member tree inRow => ⟨(laid row member).behind tree inRow,
      (laid row member).before tree inRow⟩) fun row member => (laid row member).apart

/-- The part that covers one row. -/
theorem node_row (laid : LaidPast file here row later) :
    LaidPast file here [.node (later.spanFrom (here.nextSpan file)) [row]] later :=
  .node laid.stands laid.reached laid.moved (List.forall_mem_singleton.mpr laid.toLaidTo)

end LaidPast

namespace Parser

variable {α β σ : Type}

/-- A parser that succeeds leads from cursors with one property to those with another one,
which may depend on what it gives. -/
def Ensures (file : SourceFile) (before : Cursor → Prop) (parser : Parser α)
    (after : α → Cursor → Prop) : Prop :=
  ∀ cursor later value, before cursor → parser file cursor = .ok value later → after value later

/-- A property that holds on wherever a reading goes. -/
def Steady (holds : Cursor → Prop) : Prop :=
  ∀ cursor later, holds cursor → cursor.Reaches later → holds later

theorem steady_laidTo : Steady (LaidTo file here row) := fun _ _ laid reached => laid.reach reached

theorem steady_laidPast : Steady (LaidPast file here row) :=
  fun _ _ laid reached => laid.reach reached

section Combinators

variable {parser : Parser α} {next : α → Parser β} {before : Cursor → Prop}
  {between : α → Cursor → Prop} {after : β → Cursor → Prop}

theorem ensures_pure {value : β} (holds : ∀ cursor, before cursor → after value cursor) :
    Ensures file before (pure value) after := by
  intro cursor later read start run
  cases run
  exact holds cursor start

theorem ensures_failExpecting (expected : String) :
    Ensures file before (failExpecting expected : Parser β) after := by
  intro cursor later value _ run
  rw [failExpecting_apply] at run
  cases run

theorem Ensures.bind (first : Ensures file before parser between)
    (second : ∀ value, Ensures file (between value) (next value) after) :
    Ensures file before (parser >>= next) after := by
  intro cursor later value start run
  rw [bind_apply] at run
  cases read : parser file cursor with
  | error diagnostic middle => simp [read] at run
  | ok found middle =>
      simp only [read] at run
      exact second found middle later value (first cursor middle found start read) run

/-- What holds at the start may be less, and what holds at the end more. -/
theorem Ensures.imp {earlier : Cursor → Prop} {final : α → Cursor → Prop}
    (ensures : Ensures file before parser between)
    (start : ∀ cursor, earlier cursor → before cursor)
    (ends : ∀ value cursor, between value cursor → final value cursor) :
    Ensures file earlier parser final :=
  fun cursor later value holds run =>
    ends value later (ensures cursor later value (start cursor holds) run)

/-- What comes behind a parser of no interest. -/
theorem Ensures.behind (steady : Steady before) (forward : Forward parser)
    (second : ∀ value, Ensures file before (next value) after) :
    Ensures file before (parser >>= next) after :=
  have kept : Ensures file before parser fun _ => before :=
    fun cursor later _ start run => steady cursor later start (forward.of_ok run)
  kept.bind second

/-- What comes behind a look at the tokens. -/
theorem Ensures.behind_look {value : SourceFile → Cursor → α}
    (look : ∀ file cursor, parser file cursor = .ok (value file cursor) cursor)
    (second : Ensures file (· = here) (next (value file here)) after) :
    Ensures file (· = here) (parser >>= next) after := by
  rintro _ later final rfl run
  rw [bind_apply, look] at run
  exact second _ later final rfl run

/-- What comes behind a look that does not matter. -/
theorem Ensures.behind_any {value : SourceFile → Cursor → α}
    (look : ∀ file cursor, parser file cursor = .ok (value file cursor) cursor)
    (second : ∀ found, Ensures file before (next found) after) :
    Ensures file before (parser >>= next) after :=
  have kept : Ensures file before parser fun _ => before := fun cursor later _ start run => by
    rw [look] at run
    cases run
    exact start
  kept.bind second

theorem Ensures.ite {condition : Prop} [Decidable condition] {first second : Parser β}
    (holds : condition → Ensures file before first after)
    (fails : ¬condition → Ensures file before second after) :
    Ensures file before (if condition then first else second) after := by
  split
  · next is => exact holds is
  · next isNot => exact fails isNot

/-- A part of the cursor that is known may be used at once. -/
theorem Ensures.of_forall (ensures : ∀ cursor, before cursor →
    Ensures file (· = cursor) parser between) : Ensures file before parser between :=
  fun cursor later value start run => ensures cursor start cursor later value rfl run

/-- What holds behind a round, be it the last one or not. -/
def afterRound (keeps ends : σ → Cursor → Prop) : ForInStep σ → Cursor → Prop
  | .yield next => keeps next
  | .done result => ends result

/-- What every round keeps holds at the end of a loop. -/
theorem ensures_loop {step : σ → Parser (ForInStep σ)} {keeps : σ → Cursor → Prop}
    (round : ∀ state, Ensures file (keeps state) (step state) (afterRound keeps keeps))
    (state : σ) : Ensures file (keeps state) (loop state step) keeps := by
  have rounds (count : Nat) (state : σ) :
      Ensures file (keeps state) (loopWithin step count state) keeps := by
    induction count generalizing state with
    | zero => exact ensures_pure fun _ => id
    | succ count ih =>
        refine (round state).bind fun outcome => ?_
        cases outcome with
        | done result => exact ensures_pure fun _ => id
        | yield next => exact ih next
  exact fun cursor => rounds _ state cursor

/-- What every round keeps, and what a last round makes of it, holds at the end of a loop that
uses up tokens. -/
theorem ensures_loop_done {step : σ → Parser (ForInStep σ)} (progress : Progresses step)
    {keeps ends : σ → Cursor → Prop}
    (round : ∀ state, Ensures file (keeps state) (step state) (afterRound keeps ends)) (state : σ) :
    Ensures file (keeps state) (loop state step) ends := by
  refine fun _ _ _ start run =>
    loop_induction file progress (fun state cursor later outcome kept ran => ?_)
    start run
  have behind := round state cursor later outcome kept ran
  cases outcome <;> exact behind

theorem ensures_orElse {recover : Diagnostic → Parser α} (steady : Steady before)
    (forward : Forward parser) (reads : Ensures file before parser between)
    (recovers : ∀ diagnostic, diagnostic.isError = true →
      Ensures file before (recover diagnostic) between) :
    Ensures file before (orElse parser recover) between := by
  intro cursor later value start run
  rw [orElse] at run
  cases read : parser file cursor with
  | error diagnostic middle =>
      simp only [read] at run
      obtain ⟨reached, isError⟩ := forward.of_error read
      exact recovers diagnostic isError middle later value (steady cursor middle start reached) run
  | ok found middle =>
      simp only [read] at run
      cases run
      exact reads cursor later value start read

theorem ensures_attempt (steady : Steady before) (forward : Forward parser)
    (reads : Ensures file before parser between) :
    Ensures file before (attempt parser) fun found later =>
      match found with
      | some value => between value later
      | none => before later := by
  intro cursor later found start run
  rw [attempt_apply] at run
  cases read : parser file cursor with
  | error diagnostic middle =>
      simp only [read] at run
      cases run
      exact steady cursor later start (forward.of_error read).1
  | ok value middle =>
      simp only [read] at run
      cases run
      exact reads cursor later value start read

end Combinators

section Tokens

/-- A span that reaches from where reading began. -/
theorem ensures_spanFrom (start : Span) {before : Cursor → Prop} {make : Span → β}
    {after : β → Cursor → Prop}
    (holds : ∀ cursor, before cursor → after (make (cursor.spanFrom start)) cursor) :
    Ensures file before (spanFrom start >>= fun span => pure (make span)) after :=
  .of_forall fun cursor laid => .behind_look (fun file cursor => spanFrom_apply file cursor start)
    (ensures_pure fun _ isHere => isHere ▸ holds cursor laid)

/-- An identifier that is read is a word behind what has been laid out. -/
theorem ensures_expectIdent :
    Ensures file (LaidTo file here row) expectIdent fun named =>
      LaidPast file here (row ++ [.word named.2 named.1]) := by
  intro cursor later named laid run
  rw [expectIdent_apply] at run
  cases comes : (cursor.peek? 0).bind TokenKind.ident? with
  | none => simp [comes] at run
  | some name =>
      simp only [comes] at run
      cases run
      exact laid.past
        (LaidTo.word (laid.stands.of_reaches laid.reached) (Cursor.peek?_eq_ident comes))

/-- An identifier that is read and not recorded. -/
theorem ensures_passedIdent :
    Ensures file (LaidTo file here row) expectIdent fun _ => LaidPast file here row :=
  ensures_expectIdent.imp (fun _ => id) fun _ _ laid =>
    laid.of_sublist (List.sublist_append_left _ _)

/-- A mark that has to come next is passed. -/
theorem ensures_expect (mark : Mark) :
    Ensures file (LaidTo file here row) (expect mark) fun _ => LaidPast file here row := by
  intro cursor later _ laid run
  rw [expect_apply] at run
  by_cases comes : cursor.peek? 0 = some (.mark mark)
  · rw [if_pos comes] at run
    cases run
    have moved : cursor.IsBefore cursor.advance := Nat.lt_of_succ_le (Nat.le_of_eq
      (Cursor.length_advance comes))
    exact ⟨laid.reach cursor.reaches_advance, laid.reached.moved moved⟩
  · rw [if_neg comes] at run
    cases run

end Tokens

/-- A token that was passed stays passed. -/
theorem Ensures.past {parser : Parser α} {rows : α → List SpanTree}
    (ensures : Ensures file (LaidTo file here row) parser fun value =>
      LaidTo file here (rows value))
    (forward : Forward parser) :
    Ensures file (LaidPast file here row) parser fun value => LaidPast file here (rows value) :=
  fun cursor later value laid run => ⟨ensures cursor later value laid.toLaidTo run,
    laid.moved.of_reaches (forward.of_ok run)⟩

/-- A token that a parser uses up is passed. -/
theorem Ensures.of_uses {parser : Parser α} (uses : Uses parser) (forward : Forward parser) :
    Ensures file (LaidTo file here row) parser fun _ => LaidPast file here row :=
  fun cursor later value laid run => ⟨laid.reach (forward.of_ok run),
    laid.reached.moved (uses file cursor later value run)⟩

/-- What a parser reads is laid out as a row of parts, and it passes some token. -/
def Lays (trees : α → List SpanTree) (parser : Parser α) : Prop :=
  ∀ (file : SourceFile) (here : Cursor), here.Stands file →
    Ensures file (· = here) parser fun value => LaidPast file here (trees value)

/-- Nothing has been laid out where reading begins. -/
theorem Ensures.starting {parser : Parser α} {after : α → Cursor → Prop} (stands : here.Stands file)
    (ensures : Ensures file (LaidTo file here []) parser after) :
    Ensures file (· = here) parser after := by
  intro cursor later value isHere run
  rw [isHere] at run
  exact ensures here later value (.nothing stands) run

/-- What is laid out behind other parts. -/
theorem Lays.ensures {parser : Parser α} {trees : α → List SpanTree} (lays : Lays trees parser) :
    Ensures file (LaidTo file here row) parser fun value =>
      LaidPast file here (row ++ trees value) :=
  .of_forall fun cursor laid => (lays file cursor (laid.stands.of_reaches laid.reached)).imp
    (fun _ => id) fun _ _ next => laid.past next

end Parser

end ErrorAccessors
