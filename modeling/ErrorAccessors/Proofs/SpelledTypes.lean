/-
# What is read is spelled

Whatever the reader of types makes of some tokens, the tokens that it passed
spell the type that it found.  This holds for every result and in front of
everything, also where type arguments were tried and given up, since then the
tokens behind the name have not been passed.  The tokens passed by a reading
that fails matter only in front of a closing angle bracket, where the reader of
type arguments goes on as if nothing had happened.
-/

import ErrorAccessors.Proofs.TypeSpelling

namespace ErrorAccessors

open ErrorAccessors.Parser

/-- The tokens of a tuple's elements are no whole rest of a tuple where the
closing parenthesis is missing. -/
theorem Spells.noElements {kinds : List TokenKind} {elements : List TupleElement}
    (spelled : Spells kinds (.elements elements)) : Spells kinds .noElements := by
  generalize piece : TypePiece.elements elements = given at spelled
  induction spelled generalizing elements with
  | lastElement last => exact .unclosedElement last
  | moreElements first rest _ ih => exact .moreNoElements first (ih rfl)
  | _ => cases piece

namespace Parser

variable {file : SourceFile}

/-- The commas between the brackets of an array are all counted. -/
theorem loop_rankRound_spelled {rank result : Nat} {cursor later : Cursor}
    (run : loop rank rankRound file cursor = .ok result later) :
    ∃ count tokens, cursor.remaining = tokens ++ later.remaining ∧
      tokens.map (·.kind) = List.replicate count (.mark .comma) ∧ result = rank + count ∧
      later.peek? 0 ≠ some (.mark .comma) ∧ (count = 0 → later = cursor) := by
  induction length : cursor.remaining.length using Nat.strongRecOn generalizing rank cursor with
  | ind size ih =>
      by_cases comma : cursor.peek? 0 = some (.mark .comma)
      · obtain ⟨token, kind, remaining⟩ := Cursor.remaining_eq_cons comma
        have less := Cursor.length_advance comma
        have round : rankRound rank file cursor = .ok (.yield (rank + 1)) cursor.advance :=
          (rankRound_apply file cursor rank).trans (if_pos comma)
        rw [loop_of_yield file progresses_rankRound round] at run
        obtain ⟨count, tokens, passed, kinds, rfl, ends, -⟩ :=
          ih cursor.advance.remaining.length (by omega) run rfl
        refine ⟨count + 1, token :: tokens, ?_, ?_, ?_, ends, ?_⟩
        · rw [remaining, passed, List.cons_append]
        · rw [List.map_cons, kind, kinds, List.replicate_succ]
        · omega
        · simp
      · have round : rankRound rank file cursor = .ok (.done rank) cursor :=
          (rankRound_apply file cursor rank).trans (if_neg comma)
        rw [loop_of_done file progresses_rankRound round] at run
        cases run
        exact ⟨0, [], rfl, rfl, rfl, comma, fun _ => rfl⟩

/-- Counting commas does not fail. -/
theorem loop_rankRound_ok (file : SourceFile) (rank : Nat) (cursor : Cursor) :
    ∃ result later, loop rank rankRound file cursor = .ok result later := by
  induction length : cursor.remaining.length using Nat.strongRecOn generalizing rank cursor with
  | ind size ih =>
      by_cases comma : cursor.peek? 0 = some (.mark .comma)
      · have less := Cursor.length_advance comma
        have round : rankRound rank file cursor = .ok (.yield (rank + 1)) cursor.advance :=
          (rankRound_apply file cursor rank).trans (if_pos comma)
        rw [loop_of_yield file progresses_rankRound round]
        exact ih cursor.advance.remaining.length (by omega) (rank + 1) cursor.advance rfl
      · have round : rankRound rank file cursor = .ok (.done rank) cursor :=
          (rankRound_apply file cursor rank).trans (if_neg comma)
        exact ⟨_, _, loop_of_done file progresses_rankRound round⟩

/-- The suffixes that are read turn a spelling of the type in front of them into
one of the whole type. -/
def SuffixesSpelled (start : Span) (head : TypeExpr) (file : SourceFile) (cursor : Cursor) :
    Prop :=
  match typeSuffixes start head file cursor with
  | .ok read later =>
    ∃ tokens, cursor.remaining = tokens ++ later.remaining ∧
      ∀ kinds, Spells kinds (.type head.unplaced) →
        Spells (kinds ++ tokens.map (·.kind)) (.type read.unplaced)
  | .error _ later =>
    later.peek? 0 = some (.mark .greater) →
      ∃ tokens, cursor.remaining = tokens ++ later.remaining ∧
        ∀ kinds, Spells kinds (.type head.unplaced) →
          Spells (kinds ++ tokens.map (·.kind)) .noType

/-- One suffix in front of others. -/
private theorem SuffixesSpelled.of_first {start : Span} {head next : TypeExpr}
    {cursor reached : Cursor} (tokens : List Token)
    (rest : SuffixesSpelled start next file reached)
    (run : typeSuffixes start head file cursor = typeSuffixes start next file reached)
    (passed : cursor.remaining = tokens ++ reached.remaining)
    (suffix : ∀ kinds, Spells kinds (.type head.unplaced) →
      Spells (kinds ++ tokens.map (·.kind)) (.type next.unplaced)) :
    SuffixesSpelled start head file cursor := by
  unfold SuffixesSpelled at rest ⊢
  rw [run]
  cases final : typeSuffixes start next file reached with
  | ok read later =>
      rw [final] at rest
      obtain ⟨others, behind, spelled⟩ := rest
      refine ⟨tokens ++ others, by rw [passed, behind, List.append_assoc], fun kinds inner => ?_⟩
      rw [List.map_append, ← List.append_assoc]
      exact spelled _ (suffix kinds inner)
  | error diagnostic later =>
      rw [final] at rest
      intro next
      obtain ⟨others, behind, spelled⟩ := rest next
      refine ⟨tokens ++ others, by rw [passed, behind, List.append_assoc], fun kinds inner => ?_⟩
      rw [List.map_append, ← List.append_assoc]
      exact spelled _ (suffix kinds inner)

/-- All suffixes that are read belong to the spelling. -/
theorem typeSuffixes_spelled (start : Span) (head : TypeExpr) (cursor : Cursor) :
    SuffixesSpelled start head file cursor := by
  induction length : cursor.remaining.length using Nat.strongRecOn generalizing head cursor with
  | ind size ih =>
  have progress := progresses_suffixRound start
  have round := suffixRound_apply file cursor start head
  by_cases question : cursor.peek? 0 = some (.mark .question)
  · obtain ⟨token, kind, remaining⟩ := Cursor.remaining_eq_cons question
    have less := Cursor.length_advance question
    rw [if_pos question] at round
    refine (ih cursor.advance.remaining.length (by omega) _ cursor.advance rfl).of_first
      [token] (loop_of_yield file progress round) remaining fun kinds inner => ?_
    rw [List.map_singleton, kind, TypeExpr.unplaced_nullable]
    exact .nullable inner
  rw [if_neg question] at round
  by_cases star : cursor.peek? 0 = some (.mark .star)
  · obtain ⟨token, kind, remaining⟩ := Cursor.remaining_eq_cons star
    have less := Cursor.length_advance star
    rw [if_pos star] at round
    refine (ih cursor.advance.remaining.length (by omega) _ cursor.advance rfl).of_first
      [token] (loop_of_yield file progress round) remaining fun kinds inner => ?_
    rw [List.map_singleton, kind, TypeExpr.unplaced_pointer]
    exact .pointer inner
  rw [if_neg star] at round
  by_cases bracket : cursor.peek? 0 = some (.mark .leftBracket) ∧
      (cursor.peek? 1 = some (.mark .rightBracket) ∨ cursor.peek? 1 = some (.mark .comma))
  · obtain ⟨opening, opens, remaining⟩ := Cursor.remaining_eq_cons bracket.1
    have less := Cursor.length_advance bracket.1
    obtain ⟨rank, reached, ranks⟩ := loop_rankRound_ok file 1 cursor.advance
    obtain ⟨count, commas, counted, kinds, rfl, ends, none⟩ := loop_rankRound_spelled ranks
    have lessTokens : reached.remaining.length ≤ cursor.advance.remaining.length :=
      ((forward_loop forward_rankRound 1).of_ok ranks).length_le
    rw [if_pos bracket, ranks] at round
    by_cases closed : reached.peek? 0 = some (.mark .rightBracket)
    · obtain ⟨closing, closes, behind⟩ := Cursor.remaining_eq_cons closed
      have lessClosed := Cursor.length_advance closed
      simp only [if_pos closed] at round
      refine (ih reached.advance.remaining.length (by omega) _ reached.advance rfl).of_first
        (opening :: (commas ++ [closing])) (loop_of_yield file progress round)
        (by rw [remaining, counted, behind]; simp) fun kinds' inner => ?_
      rw [List.map_cons, List.map_append, List.map_singleton, opens, kinds, closes,
        TypeExpr.unplaced_array]
      exact .array count inner
    · simp only [if_neg closed] at round
      have failed : typeSuffixes start head file cursor = _ := loop_of_error file progress round
      unfold SuffixesSpelled
      rw [failed]
      intro next
      cases count with
      | zero =>
          -- without a comma the second token has to be the closing bracket
          have second := Cursor.peek?_advance bracket.1 0
          rw [none rfl, second] at closed ends
          exact absurd bracket.2 (not_or.mpr ⟨closed, ends⟩)
      | succ count =>
          refine ⟨opening :: commas, by rw [remaining, counted, List.cons_append],
            fun kinds' inner => ?_⟩
          rw [List.map_cons, opens, kinds]
          exact .openArray count inner
  · rw [if_neg bracket] at round
    have done : typeSuffixes start head file cursor = _ := loop_of_done file progress round
    unfold SuffixesSpelled
    rw [done]
    exact ⟨[], rfl, fun kinds inner => by rwa [List.map_nil, List.append_nil]⟩

/-- Reading from a cursor ended with a type that the tokens passed spell, or it
failed, and in front of a closing bracket they spell no type. -/
def OutcomeSpelled (cursor : Cursor) : EStateM.Result Diagnostic Cursor TypeExpr → Prop
  | .ok read later =>
    ∃ tokens, cursor.remaining = tokens ++ later.remaining ∧
      Spells (tokens.map (·.kind)) (.type read.unplaced)
  | .error _ later =>
    later.peek? 0 = some (.mark .greater) →
      ∃ tokens, cursor.remaining = tokens ++ later.remaining ∧
        Spells (tokens.map (·.kind)) .noType

/-- What a reader of types makes of tokens is what they spell. -/
def TypesSpelled (type : Parser TypeExpr) : Prop :=
  ∀ (file : SourceFile) (cursor : Cursor), OutcomeSpelled cursor (type file cursor)

variable {type : Parser TypeExpr}

theorem TypesSpelled.of_ok (spelled : TypesSpelled type) {cursor later : Cursor} {read : TypeExpr}
    (run : type file cursor = .ok read later) :
    ∃ tokens, cursor.remaining = tokens ++ later.remaining ∧
      Spells (tokens.map (·.kind)) (.type read.unplaced) := by
  have result := spelled file cursor
  rwa [run] at result

theorem TypesSpelled.of_error (spelled : TypesSpelled type) {cursor later : Cursor}
    {diagnostic : Diagnostic}
    (run : type file cursor = .error diagnostic later)
    (next : later.peek? 0 = some (.mark .greater)) :
    ∃ tokens, cursor.remaining = tokens ++ later.remaining ∧
      Spells (tokens.map (·.kind)) .noType := by
  have result := spelled file cursor
  rw [run] at result
  exact result next

/-- The name of an element belongs to its spelling. -/
private theorem element_spelled {kinds : List TokenKind} {written : TypeExpr}
    (spells : Spells kinds (.type written)) {name : Option String} {reached : Cursor}
    (nameIs : (reached.peek? 0).bind TokenKind.ident? = name) :
    ∃ tokens, reached.remaining =
        tokens ++ (if name.isSome then reached.advance else reached).remaining ∧
      Spells (kinds ++ tokens.map (·.kind)) (.element ⟨written, name⟩) := by
  cases name with
  | none => exact ⟨[], rfl, .element none spells⟩
  | some word =>
      obtain ⟨token, kind, remaining⟩ :=
        Cursor.remaining_eq_cons (Cursor.peek?_eq_ident nameIs)
      refine ⟨[token], remaining, ?_⟩
      rw [List.map_singleton, kind]
      exact .element (some word) spells

section Parts

variable (file) (forward : Forward type) (spelled : TypesSpelled type)
include forward spelled

/-- Type arguments never fail.  In front of the closing bracket the tokens passed
spell the arguments found, or there is none and they spell no type. -/
theorem loop_argumentRound_spelled (found : List TypeExpr) (cursor : Cursor) :
    ∃ types later tokens,
      loop found (argumentRound type) file cursor = .ok (found ++ types) later ∧
        cursor.remaining = tokens ++ later.remaining ∧
        (later.peek? 0 = some (.mark .greater) →
          types = [] ∧ Spells (tokens.map (·.kind)) .noType ∨
            Spells (tokens.map (·.kind)) (.arguments (types.map TypeExpr.unplaced))) := by
  induction length : cursor.remaining.length using Nat.strongRecOn generalizing found cursor with
  | ind size ih =>
  have progress := progresses_argumentRound forward
  have round := argumentRound_apply type file cursor found
  cases run : type file cursor with
  | error diagnostic later =>
      rw [run] at round
      obtain ⟨tokens, passed⟩ := (forward.of_error run).1.remaining
      refine ⟨[], later, tokens, ?_, passed.symm, fun next => .inl ⟨rfl, ?_⟩⟩
      · rw [loop_of_done file progress round, List.append_nil]
      · obtain ⟨same, others, none⟩ := spelled.of_error run next
        rwa [List.append_cancel_right (passed.trans others)]
  | ok read reached =>
      obtain ⟨tokens, passed, one⟩ := spelled.of_ok run
      rw [run] at round
      by_cases comma : reached.peek? 0 = some (.mark .comma)
      · obtain ⟨token, kind, remaining⟩ := Cursor.remaining_eq_cons comma
        have before := (forward.of_ok run).length_le
        have less := Cursor.length_advance comma
        simp only [if_pos comma] at round
        obtain ⟨types, later, others, rounds, behind, spells⟩ :=
          ih reached.advance.remaining.length (by omega) (found ++ [read]) reached.advance rfl
        refine ⟨read :: types, later, tokens ++ token :: others, ?_, ?_, fun next => .inr ?_⟩
        · rw [loop_of_yield file progress round, rounds, List.append_assoc]
          rfl
        · rw [passed, remaining, behind, List.append_assoc, List.cons_append]
        · rw [List.map_append, List.map_cons, kind]
          rcases spells next with ⟨rfl, none⟩ | more
          · exact .lastArgumentAndNoType one none
          · exact .moreArguments one more
      · simp only [if_neg comma] at round
        exact ⟨[read], reached, tokens, loop_of_done file progress round, passed,
          fun _ => .inr (.lastArgument one)⟩

/-- Type arguments that are read stand between their brackets; those that are not
leave the cursor where it is. -/
theorem typeArguments_spelled {cursor : Cursor} (opened : cursor.peek? 0 = some (.mark .less)) :
    typeArguments type file cursor = .ok [] cursor ∨
      ∃ types later tokens, typeArguments type file cursor = .ok types later ∧
        cursor.remaining = tokens ++ later.remaining ∧
        ∃ kinds, Spells kinds (.arguments (types.map TypeExpr.unplaced)) ∧
          tokens.map (·.kind) = .mark .less :: (kinds ++ [.mark .greater]) := by
  obtain ⟨opening, opens, remaining⟩ := Cursor.remaining_eq_cons opened
  obtain ⟨types, later, tokens, run, passed, spells⟩ :=
    loop_argumentRound_spelled file forward spelled [] cursor.advance
  rw [typeArguments_apply, run, List.nil_append]
  by_cases closed : types ≠ [] ∧ later.peek? 0 = some (.mark .greater)
  · obtain ⟨closing, closes, behind⟩ := Cursor.remaining_eq_cons closed.2
    simp only [if_pos closed]
    refine .inr ⟨types, later.advance, opening :: (tokens ++ [closing]), rfl, ?_,
      tokens.map (·.kind), (spells closed.2).resolve_left fun none => closed.1 none.1, ?_⟩
    · rw [remaining, passed, behind]
      simp
    · rw [List.map_cons, List.map_append, opens, List.map_singleton, closes]
  · simp only [if_neg closed]
    exact .inl trivial

/-- A name and the arguments read behind it spell one part of a dotted name. -/
theorem argumentsIfAny_spelled {cursor : Cursor} {name : String}
    (named : cursor.peek? 0 = some (.ident name)) :
    ∃ types later tokens, argumentsIfAny type file cursor.advance = .ok types later ∧
      cursor.remaining = tokens ++ later.remaining ∧
      Spells (tokens.map (·.kind)) (.part ⟨name, types.map TypeExpr.unplaced⟩) := by
  obtain ⟨token, kind, remaining⟩ := Cursor.remaining_eq_cons named
  have plain : Spells ([token].map (·.kind)) (.part ⟨name, [].map TypeExpr.unplaced⟩) := by
    rw [List.map_singleton, kind]
    exact .plainPart name
  rw [argumentsIfAny_apply]
  by_cases less : cursor.advance.peek? 0 = some (.mark .less)
  · rw [if_pos less]
    rcases typeArguments_spelled file forward spelled less with
      none | ⟨types, later, tokens, run, passed, kinds, inner, spells⟩
    · exact ⟨[], cursor.advance, [token], none, remaining, plain⟩
    · refine ⟨types, later, token :: tokens, run, by rw [remaining, passed, List.cons_append], ?_⟩
      rw [List.map_cons, kind, spells]
      exact .genericPart name inner
  · rw [if_neg less]
    exact ⟨[], cursor.advance, [token], rfl, remaining, plain⟩

/-- A dotted name is read wherever an identifier comes next. -/
theorem loop_segmentRound_spelled (found : List NameSegment) {cursor : Cursor} {name : String}
    (named : cursor.peek? 0 = some (.ident name)) :
    ∃ arguments segments later tokens,
      loop found (segmentRound type) file cursor =
          .ok (found ++ ⟨name, arguments⟩ :: segments) later ∧
        cursor.remaining = tokens ++ later.remaining ∧
        Spells (tokens.map (·.kind))
          (.segments (⟨name, arguments.map TypeExpr.unplaced⟩ ::
            segments.map NameSegment.unplaced)) := by
  induction length : cursor.remaining.length using Nat.strongRecOn
    generalizing found cursor name with
  | ind size ih =>
  have progress := progresses_segmentRound forward
  obtain ⟨types, reached, tokens, run, passed, one⟩ :=
    argumentsIfAny_spelled file forward spelled named
  have round := segmentRound_apply type file cursor found
  rw [named] at round
  simp only [Option.bind_some, TokenKind.ident?, run] at round
  by_cases dot : reached.peek? 0 = some (.mark .dot) ∧ (reached.peek? 1).any TokenKind.isIdent
  · obtain ⟨token, kind, remaining⟩ := Cursor.remaining_eq_cons dot.1
    rw [if_pos dot] at round
    obtain ⟨word, second⟩ : ∃ word, reached.advance.peek? 0 = some (.ident word) := by
      rw [Cursor.peek?_advance dot.1 0]
      obtain ⟨kind, next, isIdent⟩ := (Option.any_eq_true _ _).mp dot.2
      cases kind with
      | ident word => exact ⟨word, next⟩
      | _ => cases isIdent
    have less := progress file found _ cursor reached.advance round
    obtain ⟨arguments, segments, later, others, rounds, behind, more⟩ :=
      ih reached.advance.remaining.length (by omega) (found ++ [⟨name, types⟩]) second rfl
    refine ⟨types, ⟨word, arguments⟩ :: segments, later, tokens ++ token :: others, ?_, ?_, ?_⟩
    · rw [loop_of_yield file progress round, rounds, List.append_assoc]
      rfl
    · rw [passed, remaining, behind, List.append_assoc, List.cons_append]
    · rw [List.map_append, List.map_cons, kind]
      exact .moreParts one more
  · rw [if_neg dot] at round
    exact ⟨types, [], reached, tokens, loop_of_done file progress round, passed, .lastPart one⟩

/-- A named type is spelled by the tokens passed; a qualifier that no name
follows spells none. -/
theorem namedType_spelled (start : Span) {cursor : Cursor} {name : String}
    (named : cursor.peek? 0 = some (.ident name)) (isName : name ∉ TypeExpr.keywords) :
    OutcomeSpelled cursor (namedType type start file cursor) := by
  obtain ⟨token, kind, remaining⟩ := Cursor.remaining_eq_cons named
  rw [namedType_apply]
  by_cases qualified : cursor.peek? 1 = some (.mark .doubleColon)
  · have second : cursor.advance.peek? 0 = some (.mark .doubleColon) :=
      (Cursor.peek?_advance named 0).trans qualified
    obtain ⟨colons, colonsKind, behind⟩ := Cursor.remaining_eq_cons second
    rw [if_pos qualified, named]
    simp only [Option.bind_some, TokenKind.ident?]
    cases ident : (cursor.advance.advance.peek? 0).bind TokenKind.ident? with
    | none =>
        have failed : nameSegments type file cursor.advance.advance = _ :=
          loop_of_error file (progresses_segmentRound forward)
            ((segmentRound_apply type file cursor.advance.advance []).trans (by rw [ident]))
        rw [failed]
        intro _
        refine ⟨[token, colons], by rw [remaining, behind]; rfl, ?_⟩
        rw [List.map_cons, List.map_singleton, kind, colonsKind]
        exact .qualifierOnly isName
    | some word =>
        obtain ⟨arguments, segments, later, tokens, run, passed, spells⟩ :=
          loop_segmentRound_spelled file forward spelled [] (Cursor.peek?_eq_ident ident)
        have read : nameSegments type file cursor.advance.advance = _ := run
        rw [read]
        refine ⟨token :: colons :: tokens, by rw [remaining, behind, passed]; rfl, ?_⟩
        rw [List.map_cons, List.map_cons, kind, colonsKind, TypeExpr.unplaced_named]
        exact .qualified isName spells
  · obtain ⟨arguments, segments, later, tokens, run, passed, spells⟩ :=
      loop_segmentRound_spelled file forward spelled [] named
    have read : nameSegments type file cursor = _ := run
    rw [if_neg qualified, read]
    refine ⟨tokens, passed, ?_⟩
    rw [TypeExpr.unplaced_named]
    exact .named isName spells

/-- The elements of a tuple are spelled by the tokens passed. -/
theorem loop_elementRound_spelled (found : List TupleElement) (cursor : Cursor) :
    match loop found (elementRound type) file cursor with
    | .ok all later =>
      ∃ elements tokens, all = found ++ elements ∧
        cursor.remaining = tokens ++ later.remaining ∧
        Spells (tokens.map (·.kind)) (.elements (elements.map TupleElement.unplaced))
    | .error _ later =>
      later.peek? 0 = some (.mark .greater) →
        ∃ tokens, cursor.remaining = tokens ++ later.remaining ∧
          Spells (tokens.map (·.kind)) .noElements := by
  induction length : cursor.remaining.length using Nat.strongRecOn generalizing found cursor with
  | ind size ih =>
  have progress := progresses_elementRound forward
  have round := elementRound_apply type file cursor found
  cases run : type file cursor with
  | error diagnostic later =>
      rw [run] at round
      rw [loop_of_error file progress round]
      intro next
      obtain ⟨tokens, passed, none⟩ := spelled.of_error run next
      exact ⟨tokens, passed, .noElement none⟩
  | ok read reached =>
      obtain ⟨before, passed, written⟩ := spelled.of_ok run
      rw [run] at round
      simp only at round
      generalize nameIs : (reached.peek? 0).bind TokenKind.ident? = name at round
      obtain ⟨tokens, remaining, one⟩ : ∃ tokens,
          cursor.remaining = tokens ++
            (if name.isSome then reached.advance else reached).remaining ∧
          Spells (tokens.map (·.kind)) (.element ⟨read.unplaced, name⟩) := by
        obtain ⟨tokens, behind, one⟩ := element_spelled written nameIs
        refine ⟨before ++ tokens, by rw [passed, behind, List.append_assoc], ?_⟩
        rwa [List.map_append]
      generalize (if name.isSome then reached.advance else reached) = named at round remaining
      by_cases comma : named.peek? 0 = some (.mark .comma)
      · obtain ⟨token, kind, behind⟩ := Cursor.remaining_eq_cons comma
        rw [if_pos comma] at round
        have less := progress file found _ cursor named.advance round
        have rest := ih named.advance.remaining.length (by omega) (found ++ [⟨read, name⟩])
          named.advance rfl
        rw [loop_of_yield file progress round]
        cases rounds : loop (found ++ [⟨read, name⟩]) (elementRound type) file named.advance with
        | ok all later =>
            rw [rounds] at rest
            obtain ⟨elements, others, rfl, final, more⟩ := rest
            refine ⟨⟨read, name⟩ :: elements, tokens ++ token :: others, ?_, ?_, ?_⟩
            · rw [List.append_assoc]
              rfl
            · rw [remaining, behind, final, List.append_assoc, List.cons_append]
            · rw [List.map_append, List.map_cons, kind]
              exact .moreElements one more
        | error diagnostic later =>
            rw [rounds] at rest
            intro next
            obtain ⟨others, final, more⟩ := rest next
            refine ⟨tokens ++ token :: others, ?_, ?_⟩
            · rw [remaining, behind, final, List.append_assoc, List.cons_append]
            · rw [List.map_append, List.map_cons, kind]
              exact .moreNoElements one more
      · rw [if_neg comma] at round
        rw [loop_of_done file progress round]
        exact ⟨[⟨read, name⟩], tokens, rfl, remaining, .lastElement one⟩

/-- A tuple is spelled by the tokens passed; one that is not closed spells no
type. -/
theorem tupleType_spelled (start : Span) {cursor : Cursor}
    (opened : cursor.peek? 0 = some (.mark .leftParen)) :
    OutcomeSpelled cursor (tupleType type start file cursor) := by
  obtain ⟨opening, opens, remaining⟩ := Cursor.remaining_eq_cons opened
  have rounds := loop_elementRound_spelled file forward spelled [] cursor.advance
  rw [tupleType_apply]
  cases run : loop [] (elementRound type) file cursor.advance with
  | error diagnostic later =>
      rw [run] at rounds
      intro next
      obtain ⟨tokens, passed, none⟩ := rounds next
      refine ⟨opening :: tokens, by rw [remaining, passed, List.cons_append], ?_⟩
      rw [List.map_cons, opens]
      exact .openTuple none
  | ok all later =>
      rw [run] at rounds
      obtain ⟨elements, tokens, rfl, passed, inner⟩ := rounds
      by_cases closed : later.peek? 0 = some (.mark .rightParen)
      · obtain ⟨closing, closes, behind⟩ := Cursor.remaining_eq_cons closed
        simp only [if_pos closed]
        refine ⟨opening :: (tokens ++ [closing]), by rw [remaining, passed, behind]; simp, ?_⟩
        rw [List.map_cons, List.map_append, opens, List.map_singleton, closes,
          TypeExpr.unplaced_tuple]
        exact .tuple inner
      · simp only [if_neg closed]
        intro _
        refine ⟨opening :: tokens, by rw [remaining, passed, List.cons_append], ?_⟩
        rw [List.map_cons, opens]
        exact .openTuple inner.noElements

end Parts

/-- A spelling of a type and the suffixes behind it. -/
private theorem SuffixesSpelled.behind {start : Span} {head : TypeExpr} {cursor reached : Cursor}
    (suffixes : SuffixesSpelled start head file reached) (tokens : List Token)
    (passed : cursor.remaining = tokens ++ reached.remaining)
    (spells : Spells (tokens.map (·.kind)) (.type head.unplaced)) :
    OutcomeSpelled cursor (typeSuffixes start head file reached) := by
  unfold SuffixesSpelled at suffixes
  cases run : typeSuffixes start head file reached with
  | ok read later =>
      rw [run] at suffixes
      obtain ⟨others, behind, suffix⟩ := suffixes
      refine ⟨tokens ++ others, by rw [passed, behind, List.append_assoc], ?_⟩
      rw [List.map_append]
      exact suffix _ spells
  | error diagnostic later =>
      rw [run] at suffixes
      intro next
      obtain ⟨others, behind, suffix⟩ := suffixes next
      refine ⟨tokens ++ others, by rw [passed, behind, List.append_assoc], ?_⟩
      rw [List.map_append]
      exact suffix _ spells

/-- Whatever stands in front of the suffixes spells the head. -/
private theorem OutcomeSpelled.behindHead {start : Span} {cursor : Cursor}
    {outcome : EStateM.Result Diagnostic Cursor TypeExpr} :
    OutcomeSpelled cursor outcome → OutcomeSpelled cursor (match outcome with
      | .error diagnostic later => .error diagnostic later
      | .ok head later => typeSuffixes start head file later) := by
  intro inner
  cases outcome with
  | error diagnostic later => exact inner
  | ok head reached =>
      obtain ⟨tokens, passed, spells⟩ := inner
      exact (typeSuffixes_spelled start head reached).behind tokens passed spells

/-- Whatever type is read, with whatever bound on how deep its parts nest, the
tokens passed spell it. -/
theorem typeWithin_spelled (depth : Nat) : TypesSpelled (typeWithin depth) := by
  induction depth with
  | zero =>
      intro file cursor
      have failed : typeWithin 0 file cursor = _ := failExpecting_apply file cursor "type"
      rw [failed]
      exact fun _ => ⟨[], rfl, .nothing⟩
  | succ depth ih =>
      intro file cursor
      have forward := forward_typeWithin depth
      let start := cursor.nextSpan file
      rw [typeWithin_apply]
      by_cases paren : cursor.peek? 0 = some (.mark .leftParen)
      · rw [if_pos paren]
        exact OutcomeSpelled.behindHead (tupleType_spelled file forward ih start paren)
      rw [if_neg paren]
      cases ident : (cursor.peek? 0).bind TokenKind.ident? with
      | none => exact fun _ => ⟨[], rfl, .nothing⟩
      | some name =>
          have named := Cursor.peek?_eq_ident ident
          by_cases known : name ∈ TypeExpr.keywords
          · obtain ⟨token, kind, remaining⟩ := Cursor.remaining_eq_cons named
            simp only [List.contains_iff_mem, if_pos known]
            refine (typeSuffixes_spelled start _ cursor.advance).behind [token] remaining ?_
            rw [List.map_singleton, kind, TypeExpr.unplaced_predefined]
            exact .keyword known
          · simp only [List.contains_iff_mem, if_neg known]
            exact OutcomeSpelled.behindHead (namedType_spelled file forward ih start named known)

/-- Whatever type is read, the tokens passed spell it. -/
theorem type_spelled {cursor later : Cursor} {read : TypeExpr}
    (run : Parser.type file cursor = .ok read later) :
    ∃ tokens, cursor.remaining = tokens ++ later.remaining ∧
      Spells (tokens.map (·.kind)) (.type read.unplaced) :=
  (typeWithin_spelled _).of_ok run

end Parser

end ErrorAccessors
