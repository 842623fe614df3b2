/-
# Counted delimiters

A part that is skipped ends where as many delimiters have been closed as were opened, of
whatever sorts they are.  Such a part stands between an opening and a closing delimiter, but
the two need not belong together, and neither need the ones inside of it.

Outside of skipped parts a delimiter that is opened is closed by the one that belongs to it,
because the reader asks for that one.  The exception are type arguments, which may end with
something that is no type.  A closing parenthesis or bracket that closes nothing is stepped
over like other tokens that are of no interest, a closing brace is not.
-/

import ErrorAccessors.Proofs.BodyTokens
import ErrorAccessors.Proofs.LaidParts

namespace ErrorAccessors

/-- Tokens in which every delimiter that is opened is closed, and none else, if the delimiters of
different sorts are counted together. -/
inductive Counted : List TokenKind → Prop
  | nil : Counted []
  | token {kind : TokenKind} {others : List TokenKind} (opens : kind.opens = false)
      (closes : kind.closes = false) (behind : Counted others) : Counted (kind :: others)
  | group {first last : TokenKind} {inside others : List TokenKind} (opens : first.opens = true)
      (closes : last.closes = true) (within : Counted inside) (behind : Counted others) :
      Counted (first :: (inside ++ last :: others))

/-- Tokens that declarations may be read from, given whether closing parentheses and brackets
may stand among them that close nothing. -/
inductive Outlined : Bool → List TokenKind → Prop
  | nil {stray : Bool} : Outlined stray []
  | token {stray : Bool} {kind : TokenKind} (opens : kind.opens = false)
      (closes : kind.closes = true → stray = true ∧ kind ≠ .mark .rightBrace) :
      Outlined stray [kind]
  /-- A part that is skipped. -/
  | skipped {stray : Bool} {first last : TokenKind} {inside : List TokenKind}
      (opens : first.opens = true) (closes : last.closes = true) (within : Counted inside) :
      Outlined stray (first :: (inside ++ [last]))
  /-- A part that is read, which is a body if it stands in braces. -/
  | part {stray : Bool} {opening closing : Mark} {inside : List TokenKind}
      (pair : (opening, closing) ∈ Mark.delimiters)
      (within : Outlined (opening == .leftBrace) inside) :
      Outlined stray (.mark opening :: (inside ++ [.mark closing]))
  | arguments {stray : Bool} {types : List TypeExpr} {inside : List TokenKind}
      (spells : Spells inside (.arguments types)) :
      Outlined stray (.mark .less :: (inside ++ [.mark .greater]))
  | append {stray : Bool} {first second : List TokenKind} (before : Outlined stray first)
      (behind : Outlined stray second) : Outlined stray (first ++ second)

namespace Outlined

variable {stray : Bool} {kinds others : List TokenKind}

theorem plain {kind : TokenKind} (opens : kind.opens = false) (closes : kind.closes = false) :
    Outlined stray [kind] :=
  .token opens fun isClosing => absurd isClosing (Bool.eq_false_iff.mp closes)

/-- What spells a type may be read where declarations are, and so may its parts. -/
theorem of_spells {piece : TypePiece} (spells : Spells kinds piece) :
    match piece with
    | .arguments _ | .noType | .noElements => True
    | _ => Outlined stray kinds := by
  induction spells generalizing stray with
  | keyword _ => exact .plain rfl rfl
  | named _ _ ih => exact ih
  | qualified _ _ ih =>
      exact .append (.plain rfl rfl) (.append (.plain rfl rfl) ih)
  | tuple _ ih => exact .part (by decide) ih
  | nullable _ ih => exact .append ih (.plain rfl rfl)
  | pointer _ ih => exact .append ih (.plain rfl rfl)
  | array commas _ ih =>
      refine .append ih (.part (by decide) ?_)
      induction commas with
      | zero => exact .nil
      | succ commas ihCommas => exact .append (.plain rfl rfl) ihCommas
  | plainPart _ => exact .plain rfl rfl
  | genericPart _ inner _ => exact .append (.plain rfl rfl) (.arguments inner)
  | lastPart _ ih => exact ih
  | moreParts _ _ ihFirst ihRest =>
      exact .append ihFirst (.append (.plain rfl rfl) ihRest)
  | element name _ ih =>
      cases name with
      | none => simpa using ih
      | some word => exact .append ih (.plain rfl rfl)
  | lastElement _ ih => exact ih
  | moreElements _ _ ihFirst ihRest =>
      exact .append ihFirst (.append (.plain rfl rfl) ihRest)
  | _ => trivial

end Outlined

section Braces

variable {kinds others : List TokenKind}

theorem Nested.append (before : Nested kinds) (behind : Nested others) :
    Nested (kinds ++ others) := by
  induction before with
  | nil => exact behind
  | token opens closes _ ih => exact .token opens closes ih
  | group pair within _ _ ih =>
      rw [List.cons_append, List.append_assoc, List.cons_append]
      exact .group pair within ih

theorem nested_of_plain (plain : ∀ kind ∈ kinds, kind.opens = false ∧ kind.closes = false) :
    Nested kinds := by
  induction kinds with
  | nil => exact .nil
  | cons kind others ih =>
      obtain ⟨⟨opens, closes⟩, plain⟩ := List.forall_mem_cons.mp plain
      exact .token opens closes (ih plain)

/-- Of all delimiters there are only braces. -/
def OnlyBraces (kinds : List TokenKind) : Prop :=
  ∀ kind ∈ kinds, (kind.opens = true → kind = .mark .leftBrace) ∧
    (kind.closes = true → kind = .mark .rightBrace)

theorem onlyBraces_append :
    OnlyBraces (kinds ++ others) ↔ OnlyBraces kinds ∧ OnlyBraces others :=
  List.forall_mem_append

theorem onlyBraces_cons {kind : TokenKind} :
    OnlyBraces (kind :: others) ↔ ((kind.opens = true → kind = .mark .leftBrace) ∧
      (kind.closes = true → kind = .mark .rightBrace)) ∧ OnlyBraces others :=
  List.forall_mem_cons

/-- Braces that are counted are properly nested. -/
theorem Counted.nested (counted : Counted kinds) (braces : OnlyBraces kinds) : Nested kinds := by
  induction counted with
  | nil => exact .nil
  | token opens closes _ ih => exact .token opens closes (ih (onlyBraces_cons.mp braces).2)
  | group opens closes _ _ ihWithin ihBehind =>
      obtain ⟨⟨isOpening, -⟩, braces⟩ := onlyBraces_cons.mp braces
      obtain ⟨within, braces⟩ := onlyBraces_append.mp braces
      obtain ⟨⟨-, isClosing⟩, behind⟩ := onlyBraces_cons.mp braces
      rw [isOpening opens, isClosing closes]
      exact .group (by decide) (ihWithin within) (ihBehind behind)

/-- There are no braces in a type, also if it is none. -/
theorem Spells.noBrace {piece : TypePiece} (spells : Spells kinds piece) :
    .mark .leftBrace ∉ kinds ∧ .mark .rightBrace ∉ kinds := by
  induction spells with
  | array commas inner ih => simp [ih]
  | openArray commas inner ih => simp [ih]
  | element name inner ih => cases name <;> simp [ih]
  | _ => simp_all

/-- If there are only braces, the delimiters that declarations are read from are properly
nested. -/
theorem Outlined.nested {stray : Bool} (outlined : Outlined stray kinds)
    (braces : OnlyBraces kinds) : Nested kinds := by
  induction outlined with
  | nil => exact .nil
  | @token _ kind opens closes =>
      have noClosing : kind.closes = false := by
        apply Bool.eq_false_iff.mpr
        intro isClosing
        exact (closes isClosing).2 ((onlyBraces_cons.mp braces).1.2 isClosing)
      exact .token opens noClosing .nil
  | skipped opens closes within =>
      obtain counted : Counted _ := .group opens closes within .nil
      exact counted.nested braces
  | part pair _ ih =>
      obtain ⟨-, braces⟩ := onlyBraces_cons.mp braces
      exact .group pair (ih (onlyBraces_append.mp braces).1) .nil
  | arguments spells =>
      obtain ⟨-, braces⟩ := onlyBraces_cons.mp braces
      have inner := (onlyBraces_append.mp braces).1
      refine .token rfl rfl ((nested_of_plain fun kind member => ?_).append (.token rfl rfl .nil))
      constructor
      · apply Bool.eq_false_iff.mpr
        intro opens
        exact spells.noBrace.1 ((inner kind member).1 opens ▸ member)
      · apply Bool.eq_false_iff.mpr
        intro closes
        exact spells.noBrace.2 ((inner kind member).2 closes ▸ member)
  | append _ _ ihBefore ihBehind =>
      obtain ⟨before, behind⟩ := onlyBraces_append.mp braces
      exact (ihBefore before).append (ihBehind behind)

end Braces

section Counts

variable {kinds : List TokenKind}

theorem TokenKind.opens_of_closes {kind : TokenKind} (closes : kind.closes = true) :
    kind.opens = false := by
  cases kind with
  | mark mark => cases mark <;> first | rfl | cases closes
  | _ => cases closes

/-- As many delimiters are closed as are opened where they are counted. -/
theorem Counted.countP_eq (counted : Counted kinds) :
    kinds.countP TokenKind.opens = kinds.countP TokenKind.closes := by
  induction counted with
  | nil => rfl
  | token opens closes _ ih => simp [opens, closes, ih]
  | @group first last _ _ opens closes _ _ ihWithin ihBehind =>
      have noOpening := TokenKind.opens_of_closes closes
      have noClosing : first.closes = false := by
        apply Bool.eq_false_iff.mpr
        intro isClosing
        rw [TokenKind.opens_of_closes isClosing] at opens
        cases opens
      simp only [List.countP_cons, List.countP_append, opens, closes, noOpening, noClosing,
        ihWithin, ihBehind]
      simp
      omega

/-- Without type arguments no more delimiters are opened than are closed. -/
theorem Outlined.countP_le {stray : Bool} (outlined : Outlined stray kinds)
    (noArguments : .mark .less ∉ kinds) :
    kinds.countP TokenKind.opens ≤ kinds.countP TokenKind.closes := by
  induction outlined with
  | nil => exact Nat.le_refl _
  | token opens _ => simp [List.countP_cons, opens]
  | skipped opens closes within =>
      have counted : Counted _ := .group opens closes within .nil
      exact Nat.le_of_eq counted.countP_eq
  | @part _ opening closing inside pair _ ih =>
      obtain ⟨opens, noOpening, closes⟩ := Mark.delimits pair
      have inner := ih fun among =>
        noArguments (List.mem_cons_of_mem _ (List.mem_append_left _ among))
      simp only [List.countP_cons, List.countP_append, TokenKind.opens, TokenKind.closes, opens,
        noOpening, closes]
      simp
      omega
  | arguments _ => exact absurd List.mem_cons_self noArguments
  | append _ _ ihBefore ihBehind =>
      rw [List.countP_append, List.countP_append]
      exact Nat.add_le_add (ihBefore fun among => noArguments (List.mem_append_left _ among))
        (ihBehind fun among => noArguments (List.mem_append_right _ among))

end Counts

namespace Parser

/-- In front of the delimiter that closes an open one, the delimiters are counted.  If it is not
the last one that is open, the others are closed behind it. -/
theorem counted_of_closing? {depth : Nat} {tokens rest : List Token} {last : Token}
    (found : closing? (depth + 1) tokens = some (last, rest)) :
    ∃ inside first others, tokens = inside ++ first :: others ∧ Counted (inside.map (·.kind)) ∧
      first.kind.closes = true ∧
      (depth = 0 ∧ first = last ∧ others = rest ∨
        0 < depth ∧ closing? depth others = some (last, rest)) := by
  induction length : tokens.length using Nat.strongRecOn generalizing depth tokens with
  | ind size ih =>
  cases tokens with
  | nil => cases found
  | cons token tail =>
      rw [List.length_cons] at length
      rw [closing?] at found
      by_cases opens : token.kind.opens = true
      · -- the delimiter that is opened here is closed before the one looked for
        rw [if_pos opens] at found
        obtain ⟨within, closer, behind, rfl, counted, closes, ⟨none, -⟩ | ⟨-, found⟩⟩ :=
          ih tail.length (by omega) found rfl
        · omega
        obtain ⟨inside, first, others, rfl, more, isClosing, ends⟩ :=
          ih behind.length (by simp at length; omega) found rfl
        refine ⟨token :: (within ++ closer :: inside), first, others, by simp, ?_, isClosing, ends⟩
        rw [List.map_cons, List.map_append, List.map_cons]
        exact .group opens closes counted more
      rw [if_neg opens] at found
      by_cases closes : token.kind.closes = true
      · rw [if_pos closes] at found
        refine ⟨[], token, tail, rfl, .nil, closes, ?_⟩
        by_cases outermost : depth = 0
        · subst outermost
          rw [if_pos (Nat.le_refl _)] at found
          cases found
          exact .inl ⟨rfl, rfl, rfl⟩
        · rw [if_neg (by omega), Nat.add_sub_cancel] at found
          exact .inr ⟨by omega, found⟩
      · rw [if_neg closes] at found
        obtain ⟨inside, first, others, rfl, counted, isClosing, ends⟩ :=
          ih tail.length (by omega) found rfl
        refine ⟨token :: inside, first, others, rfl, ?_, isClosing, ends⟩
        exact .token (Bool.eq_false_iff.mpr opens) (Bool.eq_false_iff.mpr closes) counted

end Parser

/-- What has been recorded up to some place has been recorded up to any place behind. -/
theorem Cursor.Reaches.recorded_ne {here cursor later : Cursor} (before : here.Reaches cursor)
    (behind : cursor.Reaches later) (recorded : cursor.recorded ≠ here.recorded) :
    later.recorded ≠ here.recorded :=
  fun silent => recorded (before.recorded_eq behind silent).1

/-- From a cursor on tokens have been passed that declarations may be read from, unless something
was recorded. -/
structure Cursor.Passed (stray : Bool) (here cursor : Cursor) : Prop where
  reached : here.Reaches cursor
  outlined : cursor.recorded = here.recorded → ∃ tokens,
    here.remaining = tokens ++ cursor.remaining ∧ Outlined stray (tokens.map (·.kind))

/-- From a cursor on such tokens have been passed up to a delimiter that is still open, and
behind it. -/
structure Cursor.Entered (stray : Bool) (opening : Mark) (here cursor : Cursor) : Prop where
  reached : here.Reaches cursor
  outlined : cursor.recorded = here.recorded → ∃ before token inside,
    here.remaining = before ++ token :: (inside ++ cursor.remaining) ∧
      Outlined stray (before.map (·.kind)) ∧ token.kind = .mark opening ∧
      Outlined (opening == .leftBrace) (inside.map (·.kind))

namespace Cursor

variable {stray : Bool} {opening closing : Mark} {here cursor later : Cursor} {kind : TokenKind}

namespace Passed

theorem refl (here : Cursor) : here.Passed stray here :=
  ⟨.refl here, fun _ => ⟨[], rfl, .nil⟩⟩

theorem trans (passed : here.Passed stray cursor) (behind : cursor.Passed stray later) :
    here.Passed stray later := by
  refine ⟨passed.reached.trans behind.reached, fun silent => ?_⟩
  obtain ⟨silentFirst, silentBehind⟩ := passed.reached.recorded_eq behind.reached silent
  obtain ⟨first, isFirst, outlinedFirst⟩ := passed.outlined silentFirst
  obtain ⟨second, isSecond, outlinedSecond⟩ := behind.outlined silentBehind
  refine ⟨first ++ second, ?_, ?_⟩
  · rw [isFirst, isSecond, List.append_assoc]
  · rw [List.map_append]
    exact .append outlinedFirst outlinedSecond

/-- Where something was recorded, nothing is said about the tokens. -/
theorem of_recorded (reached : here.Reaches cursor) (recorded : cursor.recorded ≠ here.recorded) :
    here.Passed stray cursor :=
  ⟨reached, fun silent => absurd silent recorded⟩

theorem step (next : here.peek? 0 = some kind) (opens : kind.opens = false)
    (closes : kind.closes = true → stray = true ∧ kind ≠ .mark .rightBrace) :
    here.Passed stray here.advance := by
  obtain ⟨token, isKind, remaining⟩ := remaining_eq_cons next
  refine ⟨here.reaches_advance, fun _ => ⟨[token], remaining, ?_⟩⟩
  rw [List.map_singleton, isKind]
  exact .token opens closes

/-- A token that is no delimiter is passed. -/
theorem plain (next : here.peek? 0 = some kind) (opens : kind.opens = false)
    (closes : kind.closes = false) : here.Passed stray here.advance :=
  step next opens fun isClosing => absurd isClosing (Bool.eq_false_iff.mp closes)

theorem enter (passed : here.Passed stray cursor) (next : cursor.peek? 0 = some (.mark opening)) :
    here.Entered stray opening cursor.advance := by
  obtain ⟨token, isKind, remaining⟩ := remaining_eq_cons next
  refine ⟨passed.reached.trans cursor.reaches_advance, fun silent => ?_⟩
  obtain ⟨silentFirst, -⟩ := passed.reached.recorded_eq cursor.reaches_advance silent
  obtain ⟨before, isBefore, outlined⟩ := passed.outlined silentFirst
  refine ⟨before, token, [], ?_, outlined, isKind, .nil⟩
  rw [isBefore, remaining, List.nil_append]

end Passed

namespace Entered

theorem trans (entered : here.Entered stray opening cursor)
    (behind : cursor.Passed (opening == .leftBrace) later) : here.Entered stray opening later := by
  refine ⟨entered.reached.trans behind.reached, fun silent => ?_⟩
  obtain ⟨silentFirst, silentBehind⟩ := entered.reached.recorded_eq behind.reached silent
  obtain ⟨before, token, inside, isFirst, outlined, isKind, within⟩ := entered.outlined silentFirst
  obtain ⟨second, isSecond, outlinedSecond⟩ := behind.outlined silentBehind
  refine ⟨before, token, inside ++ second, ?_, outlined, isKind, ?_⟩
  · rw [isFirst, isSecond, List.append_assoc]
  · rw [List.map_append]
    exact .append within outlinedSecond

/-- The part ends with the delimiter that belongs to the open one. -/
theorem leave (entered : here.Entered stray opening cursor)
    (pair : (opening, closing) ∈ Mark.delimiters)
    (next : cursor.peek? 0 = some (.mark closing)) : here.Passed stray cursor.advance := by
  obtain ⟨last, isLast, remaining⟩ := remaining_eq_cons next
  refine ⟨entered.reached.trans cursor.reaches_advance, fun silent => ?_⟩
  obtain ⟨silentFirst, -⟩ := entered.reached.recorded_eq cursor.reaches_advance silent
  obtain ⟨before, token, inside, isFirst, outlined, isKind, within⟩ := entered.outlined silentFirst
  refine ⟨before ++ token :: (inside ++ [last]), ?_, ?_⟩
  · rw [isFirst, remaining]
    simp
  · rw [List.map_append, List.map_cons, List.map_append, List.map_singleton, isKind, isLast]
    exact .append outlined (.part pair within)

end Entered

end Cursor

namespace Parser

variable {α β σ : Type} {file : SourceFile} {stray : Bool} {here : Cursor}

/-- A parser passes tokens that declarations may be read from. -/
def Outlines (stray : Bool) (parser : Parser α) : Prop :=
  ∀ (file : SourceFile) (here : Cursor),
    Ensures file (· = here) parser fun _ => here.Passed stray

section Combinators

variable {parser : Parser α} {next : α → Parser β}

theorem Outlines.of_ok (outlines : Outlines stray parser) {later : Cursor} {value : α}
    (run : parser file here = .ok value later) : here.Passed stray later :=
  outlines file here here later value rfl run

theorem Outlines.of_forall (passes : ∀ (file : SourceFile) (here later : Cursor) (value : α),
    parser file here = .ok value later → here.Passed stray later) : Outlines stray parser := by
  rintro file here _ later value rfl run
  exact passes file _ later value run

/-- What is passed by a parser that stands behind other tokens. -/
theorem Outlines.ensures (outlines : Outlines stray parser) :
    Ensures file (here.Passed stray) parser fun _ => here.Passed stray :=
  fun _ _ _ passed run => passed.trans (outlines.of_ok run)

theorem Outlines.inside {opening : Mark} (outlines : Outlines (opening == .leftBrace) parser) :
    Ensures file (here.Entered stray opening) parser fun _ => here.Entered stray opening :=
  fun _ _ _ entered run => entered.trans (outlines.of_ok run)

theorem outlines_pure (value : α) : Outlines stray (pure value) := by
  apply Outlines.of_forall
  intro file here later read run
  cases run
  exact .refl here

/-- Behind something that is known to be passed. -/
theorem Ensures.onward (first : Ensures file (· = here) parser fun _ => here.Passed stray)
    (second : ∀ value, Outlines stray (next value)) :
    Ensures file (· = here) (parser >>= next) fun _ => here.Passed stray :=
  first.bind fun value => (second value).ensures

theorem Outlines.bind (first : Outlines stray parser)
    (second : ∀ value, Outlines stray (next value)) :
    Outlines stray (parser >>= next) :=
  fun file here => (first file here).onward second

theorem Outlines.behind_any {value : SourceFile → Cursor → α}
    (look : ∀ file cursor, parser file cursor = .ok (value file cursor) cursor)
    (second : ∀ found, Outlines stray (next found)) : Outlines stray (parser >>= next) :=
  fun _ _ => .behind_any look fun found => second found _ _

theorem Outlines.ite {condition : Prop} [Decidable condition] {first second : Parser β}
    (holds : condition → Outlines stray first) (fails : ¬condition → Outlines stray second) :
    Outlines stray (if condition then first else second) :=
  fun file here => .ite (fun is => holds is file here) fun isNot => fails isNot file here

theorem outlines_loop {step : σ → Parser (ForInStep σ)}
    (round : ∀ state, Outlines stray (step state)) (state : σ) :
    Outlines stray (loop state step) := by
  intro file here
  have rounds (state : σ) : Ensures file (here.Passed stray) (step state)
      (afterRound (fun _ => here.Passed stray) fun _ => here.Passed stray) :=
    (round state).ensures.imp (fun _ => id) fun outcome cursor passed => by
      cases outcome <;> exact passed
  have starts (cursor : Cursor) (isHere : cursor = here) : here.Passed stray cursor := by
    rw [isHere]
    exact .refl here
  exact (ensures_loop rounds state).imp starts fun _ _ => id

theorem outlines_failExpecting (expected : String) :
    Outlines stray (failExpecting expected : Parser α) :=
  fun _ _ => ensures_failExpecting expected

end Combinators

section Tokens

/-- Stepping over a token that is no delimiter. -/
theorem ensures_advance {kind : TokenKind} (next : here.peek? 0 = some kind)
    (opens : kind.opens = false) (closes : kind.closes = false) :
    Ensures file (· = here) advance fun _ => here.Passed stray := by
  rintro _ later _ rfl run
  cases run
  exact .plain next opens closes

theorem outlines_expectIdent : Outlines stray expectIdent := by
  apply Outlines.of_forall
  intro file here later named run
  rw [expectIdent_apply] at run
  cases comes : (here.peek? 0).bind TokenKind.ident? with
  | none => simp [comes] at run
  | some name =>
      simp only [comes] at run
      cases run
      exact .plain (Cursor.peek?_eq_ident comes) rfl rfl

/-- An identifier in front of a token that is known. -/
theorem ensures_nameBefore {kind : TokenKind} (second : here.peek? 1 = some kind) :
    Ensures file (· = here) expectIdent fun _ cursor =>
      here.Passed stray cursor ∧ cursor.peek? 0 = some kind := by
  intro cursor later named isHere run
  rw [isHere] at run
  refine ⟨outlines_expectIdent.of_ok run, ?_⟩
  rw [expectIdent_apply] at run
  cases comes : (here.peek? 0).bind TokenKind.ident? with
  | none => simp [comes] at run
  | some name =>
      simp only [comes] at run
      cases run
      exact (Cursor.peek?_advance (Cursor.peek?_eq_ident comes) 0).trans second

theorem ensures_advanceBehind {kind : TokenKind} (opens : kind.opens = false)
    (closes : kind.closes = false) :
    Ensures file (fun cursor => here.Passed stray cursor ∧ cursor.peek? 0 = some kind) advance
      fun _ => here.Passed stray := by
  rintro cursor later _ ⟨passed, next⟩ run
  cases run
  exact passed.trans (.plain next opens closes)

variable {mark : Mark}

theorem outlines_eat (opens : mark.opens = false) (closes : mark.closes = false) :
    Outlines stray (eat mark) := by
  apply Outlines.of_forall
  intro file here later eaten run
  rw [eat_apply] at run
  split at run
  · next comes =>
      cases run
      exact .plain comes opens closes
  · cases run
    exact .refl here

theorem outlines_expect (opens : mark.opens = false) (closes : mark.closes = false) :
    Outlines stray (expect mark) := by
  apply Outlines.of_forall
  intro file here later _ run
  rw [expect_apply] at run
  split at run
  · next comes =>
      cases run
      exact .plain comes opens closes
  · cases run

theorem outlines_eatWord (word : String) : Outlines stray (eatWord word) := by
  apply Outlines.of_forall
  intro file here later eaten run
  rw [eatWord_apply] at run
  split at run
  · next comes =>
      cases run
      exact .plain (Cursor.peek?_eq_ident comes) rfl rfl
  · cases run
    exact .refl here

/-- A choice by the mark that comes next. -/
theorem ensures_ifMark {first second : Parser α} {after : α → Cursor → Prop}
    (comes : here.peek? 0 = some (.mark mark) → Ensures file (· = here) first after)
    (differs : Ensures file (· = here) second after) :
    Ensures file (· = here) (atMark mark >>= fun isNext => if isNext then first else second)
      after :=
  .behind_look (fun file cursor => atMark_apply file cursor mark)
    (.ite (fun isNext => comes (eq_of_beq isNext)) fun _ => differs)

/-- What is made of the place of the tokens that have been read. -/
theorem outlines_spanned (start : Span) (build : Span → α) :
    Outlines stray (spanFrom start >>= fun span => pure (build span)) :=
  .behind_any (fun file cursor => spanFrom_apply file cursor start) fun _ => outlines_pure _

/-- Asking for an opening delimiter leads into a part. -/
theorem ensures_enter (opening : Mark) :
    Ensures file (here.Passed stray) (expect opening) fun _ => here.Entered stray opening := by
  intro cursor later _ passed run
  rw [expect_apply] at run
  split at run
  · next comes =>
      cases run
      exact passed.enter comes
  · cases run

/-- Asking for the closing delimiter leads out of it. -/
theorem ensures_leave {opening closing : Mark} (pair : (opening, closing) ∈ Mark.delimiters) :
    Ensures file (here.Entered stray opening) (expect closing) fun _ => here.Passed stray := by
  intro cursor later _ entered run
  rw [expect_apply] at run
  split at run
  · next comes =>
      cases run
      exact entered.leave pair comes
  · cases run

end Tokens

section Skipping

/-- A delimited part is skipped by counting. -/
theorem ensures_skipBalanced {kind : TokenKind} (next : here.peek? 0 = some kind)
    (opens : kind.opens = true) :
    Ensures file (· = here) skipBalanced fun _ => here.Passed stray := by
  intro cursor later _ isHere run
  rw [isHere] at run
  refine ⟨forward_skipBalanced.of_ok run, fun silent => ?_⟩
  obtain ⟨token, isKind, remaining⟩ := Cursor.remaining_eq_cons next
  rw [skipBalanced_apply, remaining, closing?, isKind, if_pos opens] at run
  cases found : closing? (0 + 1) here.advance.remaining with
  | none =>
      rw [found] at run
      cases run
      simp at silent
  | some result =>
      obtain ⟨last, rest⟩ := result
      rw [found] at run
      cases run
      obtain ⟨inside, first, others, isInside, counted, closes, ⟨-, rfl, rfl⟩ | ⟨none, -⟩⟩ :=
        counted_of_closing? found
      · refine ⟨token :: (inside ++ [first]), ?_, ?_⟩
        · rw [remaining, isInside]
          simp
        · rw [List.map_cons, List.map_append, List.map_singleton, isKind]
          exact .skipped opens closes counted
      · exact absurd none (Nat.lt_irrefl 0)

/-- A way of skipping skips delimited parts as a whole, and steps over a closing delimiter only
where it may. -/
def SkipsOver (stray : Bool) (action : TokenKind → SkipAction) : Prop :=
  ∀ kind, match action kind with
    | .stop => True
    | .step | .stepAndStop => kind.opens = false ∧
        (kind.closes = true → stray = true ∧ kind ≠ .mark .rightBrace)
    | .whole | .block => kind.opens = true

theorem outlines_skipBy {action : TokenKind → SkipAction} (skips : SkipsOver stray action) :
    Outlines stray (skipBy action) := by
  refine outlines_loop (fun _ => .of_forall fun file here later outcome run => ?_) ()
  rw [skipRound_apply] at run
  cases next : here.peek? 0 with
  | none =>
      simp only [next] at run
      cases run
      exact .refl here
  | some kind =>
      obtain ⟨middle, skip, -⟩ := skipBalanced_ok file here
      have does := skips kind
      have grouped (opens : kind.opens = true) : here.Passed stray middle :=
        ensures_skipBalanced next opens here middle () rfl skip
      simp only [next] at run
      cases isAction : action kind with
      | stop =>
          simp only [isAction] at run
          cases run
          exact .refl here
      | step =>
          simp only [isAction] at run does
          cases run
          exact .step next does.1 does.2
      | stepAndStop =>
          simp only [isAction] at run does
          cases run
          exact .step next does.1 does.2
      | whole =>
          simp only [isAction, skip] at run does
          cases run
          exact grouped does
      | block =>
          simp only [isAction, skip] at run does
          split at run
          all_goals
            cases run
            exact grouped does

theorem skipsOver_memberAction : SkipsOver true memberAction := by
  intro kind
  cases kind with
  | mark mark => cases mark <;> trivial
  | _ => exact ⟨rfl, nofun⟩

theorem skipsOver_statementAction : SkipsOver true statementAction := by
  intro kind
  cases kind with
  | mark mark => cases mark <;> trivial
  | _ => exact ⟨rfl, nofun⟩

theorem skipsOver_argumentAction {stray : Bool} : SkipsOver stray argumentAction := by
  intro kind
  cases kind with
  | mark mark => cases mark <;> first | trivial | exact ⟨rfl, nofun⟩
  | _ => exact ⟨rfl, nofun⟩

/-- What stops at braces does not step over them. -/
theorem skipsOver_untilAction {marks : List Mark} (opening : .leftBrace ∈ marks)
    (closing : .rightBrace ∈ marks) : SkipsOver true (untilAction marks) := by
  intro kind
  cases kind with
  | mark mark =>
      by_cases stops : mark ∈ marks
      · have isStop : untilAction marks (.mark mark) = .stop := by simp [untilAction, stops]
        rw [isStop]
        trivial
      · have noStop : untilAction marks (.mark mark) =
            if mark = .leftParen ∨ mark = .leftBracket then .whole else .step := by
          simp [untilAction, stops]
        rw [noStop]
        cases mark <;>
          first
          | rfl
          | exact ⟨rfl, by decide⟩
          | exact absurd opening stops
          | exact absurd closing stops
  | _ => exact ⟨rfl, by simp⟩

end Skipping

end Parser

end ErrorAccessors
