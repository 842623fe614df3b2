/-
# Types are laid out

A type that is read covers the tokens from the one in front of which its reading began to
the one passed last, and the types inside of it stand in it, one behind the other.

Type arguments are tried.  If they turn out to be none, the reader goes back to the name in
front of them, and nothing of what was read is kept.
-/

import ErrorAccessors.Proofs.LaidParts
import ErrorAccessors.Proofs.TypeRounds

namespace ErrorAccessors

namespace Parser

variable {file : SourceFile} {here : Cursor} {row : List SpanTree}

section Rounds

variable {type : Parser TypeExpr} (forward : Forward type)
    (lays : Lays (fun read => [read.spanTree]) type)

include forward lays

/-- Type arguments are laid out behind what stands in front of them, or nothing is. -/
theorem ensures_typeArguments :
    Ensures file (LaidTo file here row) (typeArguments type) fun found =>
      LaidTo file here (row ++ TypeExpr.spanTreesOfList found) := by
  let keeps (found : List TypeExpr) := LaidTo file here (row ++ TypeExpr.spanTreesOfList found)
  have rounds : Ensures file (keeps []) (loop [] (argumentRound type)) keeps := by
    refine ensures_loop (fun found => ?_) []
    refine (ensures_attempt steady_laidTo forward lays.ensures).bind fun argument => ?_
    cases argument with
    | none => exact ensures_pure fun _ laid => laid
    | some argument =>
        have added (later : Cursor) (laid : LaidPast file here
            (row ++ TypeExpr.spanTreesOfList found ++ [argument.spanTree]) later) :
            keeps (found ++ [argument]) later := by
          simpa [keeps, TypeExpr.spanTreesOfList] using laid.toLaidTo
        exact .behind steady_laidPast (forward_eat .comma) fun _ =>
          .ite (fun _ => ensures_pure added) fun _ => ensures_pure added
  intro cursor later found laid run
  have nothing {cursor : Cursor} (laid : LaidTo file here row cursor) : keeps [] cursor := by
    simpa [keeps, TypeExpr.spanTreesOfList] using laid
  rw [typeArguments_apply] at run
  cases read : loop [] (argumentRound type) file cursor.advance with
  | error diagnostic reached => simp [read] at run
  | ok arguments reached =>
      simp only [read] at run
      split at run
      · cases run
        exact LaidTo.reach (rounds _ _ _ (nothing (laid.reach cursor.reaches_advance)) read)
          reached.reaches_advance
      · cases run
        exact nothing laid

/-- The type arguments in the parts of a name are laid out, and the name is passed. -/
theorem ensures_nameSegments :
    Ensures file (LaidTo file here row) (nameSegments type) fun found =>
      LaidPast file here (row ++ NameSegment.spanTreesOfList found) := by
  let keeps (found : List NameSegment) :=
    LaidTo file here (row ++ NameSegment.spanTreesOfList found)
  let ends (found : List NameSegment) :=
    LaidPast file here (row ++ NameSegment.spanTreesOfList found)
  have rounds : Ensures file (keeps []) (loop [] (segmentRound type)) ends := by
    refine ensures_loop_done (progresses_segmentRound forward) (fun found => ?_) []
    refine ensures_passedIdent.bind fun ⟨name, _⟩ => ?_
    have goesOn (arguments : List TypeExpr) :
        Ensures file (LaidPast file here
            (row ++ NameSegment.spanTreesOfList found ++ TypeExpr.spanTreesOfList arguments))
          (do
            if (← atMark .dot) && (← secondIsIdent) then
              advance
              return ForInStep.yield (found ++ [⟨name, arguments⟩])
            else return ForInStep.done (found ++ [⟨name, arguments⟩])) (afterRound keeps ends) := by
      have added (later : Cursor) (laid : LaidPast file here
          (row ++ NameSegment.spanTreesOfList found ++ TypeExpr.spanTreesOfList arguments) later) :
          ends (found ++ [⟨name, arguments⟩]) later := by
        simpa [ends, NameSegment.spanTreesOfList] using laid
      refine .behind_any (fun file cursor => atMark_apply file cursor _) fun _ => ?_
      refine .behind_any secondIsIdent_apply fun _ => .ite (fun _ => ?_) fun _ => ensures_pure added
      exact .behind steady_laidPast forward_advance fun _ =>
        ensures_pure fun later laid => (added later laid).toLaidTo
    refine .behind_any (fun file cursor => atMark_apply file cursor _) fun _ =>
      .ite (fun _ => ?_) fun _ => ?_
    · exact ((ensures_typeArguments forward lays).past (forward_typeArguments forward)).bind goesOn
    · refine Ensures.bind (ensures_pure fun later laid => ?_) goesOn
      simpa [TypeExpr.spanTreesOfList] using laid
  refine rounds.imp (fun cursor laid => ?_) fun _ _ => id
  simpa [keeps, NameSegment.spanTreesOfList] using laid

/-- A named type covers its parts. -/
theorem ensures_namedType (stands : here.Stands file) :
    Ensures file (· = here) (namedType type (here.nextSpan file)) fun read =>
      LaidPast file here [read.spanTree] := by
  have named (qualifier : Option String) :
      Ensures file (LaidTo file here []) (nameSegments type >>= fun segments =>
        spanFrom (here.nextSpan file) >>= fun span =>
          (pure (.named qualifier segments span) : Parser TypeExpr)) fun read =>
        LaidPast file here [read.spanTree] :=
    (ensures_nameSegments forward lays).bind fun segments =>
      ensures_spanFrom _ fun cursor laid => laid.node_row
  refine .starting stands (.behind_any (fun file cursor => secondIsMark_apply file cursor _)
    fun _ => .ite (fun _ => ?_) fun _ => ?_)
  · refine ensures_passedIdent.bind fun ⟨name, _⟩ => ?_
    refine .behind steady_laidPast forward_advance fun _ => ?_
    exact Ensures.bind (ensures_pure fun cursor laid => laid.toLaidTo) named
  · exact Ensures.bind (ensures_pure fun _ => id) named

omit forward in
/-- A tuple type covers its elements. -/
theorem ensures_tupleType (stands : here.Stands file) :
    Ensures file (· = here) (tupleType type (here.nextSpan file)) fun read =>
      LaidPast file here [read.spanTree] := by
  let keeps (found : List TupleElement) := LaidTo file here (TupleElement.spanTreesOfList found)
  have rounds : Ensures file (keeps []) (loop [] (elementRound type)) keeps := by
    refine ensures_loop (fun found => ?_) []
    refine lays.ensures.bind fun element => ?_
    refine .behind_any peekName_apply fun name => ?_
    have added (later : Cursor) (laid : LaidPast file here
        (TupleElement.spanTreesOfList found ++ [element.spanTree]) later) :
        keeps (found ++ [⟨element, name⟩]) later := by
      simpa [keeps, TupleElement.spanTreesOfList] using laid.toLaidTo
    have goesOn : Ensures file (LaidPast file here
          (TupleElement.spanTreesOfList found ++ [element.spanTree]))
        (do
          if ← eat .comma then return ForInStep.yield (found ++ [⟨element, name⟩])
          else return ForInStep.done (found ++ [⟨element, name⟩])) (afterRound keeps keeps) :=
      .behind steady_laidPast (forward_eat .comma) fun _ =>
        .ite (fun _ => ensures_pure added) fun _ => ensures_pure added
    exact .ite (fun _ => .behind steady_laidPast forward_advance fun _ => goesOn) fun _ => goesOn
  refine .starting stands
    (.behind steady_laidTo forward_advance fun _ => rounds.bind fun elements => ?_)
  exact (ensures_expect .rightParen).bind fun _ => ensures_spanFrom _ fun cursor laid =>
    laid.node_row

end Rounds

/-- Every suffix covers the type in front of it. -/
theorem ensures_typeSuffixes (head : TypeExpr) :
    Ensures file (LaidPast file here [head.spanTree]) (typeSuffixes (here.nextSpan file) head)
      fun read => LaidPast file here [read.spanTree] := by
  let keeps (read : TypeExpr) := LaidPast file here [read.spanTree]
  have covers (inner : TypeExpr) (make : Span → TypeExpr)
      (isTree : ∀ span, (make span).spanTree = .node span [[inner.spanTree]]) :
      Ensures file (keeps inner) (spanFrom (here.nextSpan file) >>= fun span =>
          (pure (.yield (make span)) : Parser (ForInStep TypeExpr))) (afterRound keeps keeps) :=
    ensures_spanFrom _ fun cursor laid => by
      show LaidPast file here [(make _).spanTree] cursor
      rw [isTree]
      exact laid.node_row
  show Ensures file (keeps head) (loop head (suffixRound (here.nextSpan file))) keeps
  refine ensures_loop (fun inner => ?_) head
  refine .behind steady_laidPast (forward_eat .question) fun _ =>
    .ite (fun _ => covers inner _ fun _ => rfl) fun _ => ?_
  refine .behind steady_laidPast (forward_eat .star) fun _ =>
    .ite (fun _ => covers inner _ fun _ => rfl) fun _ => ?_
  refine .behind_any (fun file cursor => atMark_apply file cursor _) fun _ => ?_
  refine .behind_any (fun file cursor => secondIsMark_apply file cursor _) fun _ => ?_
  refine .behind_any (fun file cursor => secondIsMark_apply file cursor _) fun _ =>
    .ite (fun _ => ?_) fun _ => ensures_pure fun _ laid => laid
  refine .behind steady_laidPast forward_advance fun _ => ?_
  refine .behind steady_laidPast (forward_loop forward_rankRound 1) fun rank => ?_
  exact .behind steady_laidPast (forward_expect .rightBracket) fun _ =>
    covers inner _ fun _ => rfl

/-- A type covers the tokens that were passed for it, and the types inside of it stand in
it. -/
theorem lays_typeWithin (depth : Nat) : Lays (fun read => [read.spanTree]) (typeWithin depth) := by
  induction depth with
  | zero => exact fun _ _ _ => ensures_failExpecting _
  | succ depth ih =>
      intro file here stands
      have forward := forward_typeWithin depth
      refine .behind_look nextSpan_apply ?_
      refine .behind_look (fun file cursor => atMark_apply file cursor _)
        (.ite (fun _ => ?_) fun _ => ?_)
      · exact (ensures_tupleType ih stands).bind ensures_typeSuffixes
      · refine .behind_look peekName_apply ?_
        cases comes : (here.peek? 0).bind TokenKind.ident? with
        | none => exact ensures_failExpecting _
        | some name =>
            refine .ite (fun _ => ?_) fun _ => ?_
            · have passed : Ensures file (· = here) advance fun _ =>
                  LaidPast file here [.word (here.nextSpan file) name] := by
                rintro _ later _ rfl run
                cases run
                exact LaidTo.word stands (Cursor.peek?_eq_ident comes)
              exact passed.bind fun _ => ensures_typeSuffixes (.predefined ..)
            · exact (ensures_namedType forward ih stands).bind ensures_typeSuffixes

theorem lays_type : Lays (fun read => [read.spanTree]) type :=
  fun file here stands cursor later read start run =>
    lays_typeWithin (cursor.remaining.length + 1) file here stands cursor later read start run

end Parser

end ErrorAccessors
