/-
# Where types stand

The span of a type that has been read reaches from the token in front of which
its reading started to the token just passed.  Every suffix extends it, so that
this holds for the whole type and not only for its head.
-/

import ErrorAccessors.Proofs.TypeRounds

namespace ErrorAccessors

/-- A span covers itself. -/
theorem Span.merge_self (span : Span) : span.merge span = span := by
  simp [merge]

namespace Parser

variable {file : SourceFile} {cursor later : Cursor} {start : Span}

/-- The span of a name that consists of parts that were read. -/
private theorem span_ofSegments {read : TypeExpr} {qualifier : Option String}
    {segments : EStateM.Result Diagnostic Cursor (List NameSegment)}
    (run : (match segments with
      | .error diagnostic final => .error diagnostic final
      | .ok segments final => .ok (.named qualifier segments (final.spanFrom start)) final :
        EStateM.Result Diagnostic Cursor TypeExpr) = .ok read later) :
    read.span = later.spanFrom start := by
  cases segments with
  | error diagnostic final => cases run
  | ok found final =>
      cases run
      rfl

theorem span_namedType {type : Parser TypeExpr} {read : TypeExpr}
    (run : namedType type start file cursor = .ok read later) :
    read.span = later.spanFrom start := by
  rw [namedType_apply] at run
  by_cases qualified : cursor.peek? 1 = some (.mark .doubleColon)
  · rw [if_pos qualified] at run
    cases named : (cursor.peek? 0).bind TokenKind.ident? with
    | none => simp [named] at run
    | some name =>
        simp only [named] at run
        exact span_ofSegments run
  · rw [if_neg qualified] at run
    exact span_ofSegments run

theorem span_tupleType {type : Parser TypeExpr} {read : TypeExpr}
    (run : tupleType type start file cursor = .ok read later) :
    read.span = later.spanFrom start := by
  rw [tupleType_apply] at run
  cases elements : loop [] (elementRound type) file cursor.advance with
  | error diagnostic reached => simp [elements] at run
  | ok found reached =>
      simp only [elements] at run
      split at run
      · cases run
        rfl
      · cases run

/-- A suffix extends the span up to where it ends. -/
theorem span_typeSuffixes {head read : TypeExpr} (starts : head.span = cursor.spanFrom start)
    (run : typeSuffixes start head file cursor = .ok read later) :
    read.span = later.spanFrom start := by
  let reaching (type : TypeExpr) (reached : Cursor) : Prop := type.span = reached.spanFrom start
  refine @loop_induction _ _ file (progresses_suffixRound start) reaching reaching ?_ _ _ _ _ starts
    run
  intro type reached behind outcome kept round
  rw [suffixRound_apply] at round
  split at round
  · cases round
    rfl
  split at round
  · cases round
    rfl
  split at round
  · cases ranks : loop 1 rankRound file reached.advance with
    | error diagnostic final => simp [ranks] at round
    | ok rank final =>
        simp only [ranks] at round
        split at round
        · cases round
          rfl
        · cases round
  · cases round
    exact kept

/-- The span of a type reaches from the token in front of it to its last one. -/
theorem span_typeWithin {depth : Nat} {read : TypeExpr}
    (run : typeWithin depth file cursor = .ok read later) :
    read.span = later.spanFrom (cursor.nextSpan file) := by
  cases depth with
  | zero =>
      have failed : typeWithin 0 file cursor = .error (cursor.unexpected file "type") cursor :=
        failExpecting_apply file cursor "type"
      cases failed.symm.trans run
  | succ depth =>
      rw [typeWithin_apply] at run
      split at run
      · cases tuple : tupleType (typeWithin depth) (cursor.nextSpan file) file cursor with
        | error diagnostic reached => simp [tuple] at run
        | ok head reached =>
            simp only [tuple] at run
            exact span_typeSuffixes (span_tupleType tuple) run
      · cases ident : (cursor.peek? 0).bind TokenKind.ident? with
        | none => simp [ident] at run
        | some name =>
            simp only [ident] at run
            split at run
            · apply span_typeSuffixes ?_ run
              obtain ⟨previous, remaining, recorded⟩ := cursor
              cases remaining with
              | nil => simp at ident
              | cons token rest =>
                  show token.span =
                    if token.span.start.offset ≤ token.span.stop.offset then
                      token.span.merge token.span
                    else token.span
                  rw [Span.merge_self, ite_self]
            · cases named : namedType (typeWithin depth) (cursor.nextSpan file) file cursor with
              | error diagnostic reached => simp [named] at run
              | ok head reached =>
                  simp only [named] at run
                  exact span_typeSuffixes (span_namedType named) run

theorem span_type {read : TypeExpr} (run : type file cursor = .ok read later) :
    read.span = later.spanFrom (cursor.nextSpan file) :=
  span_typeWithin run

end Parser

end ErrorAccessors
