/-
# Tokens with matching brackets

Tokens in which every bracket is closed are skipped as they are, whatever stands
behind them, because skipping counts the delimiters.  Angle brackets are not
counted, since they may be comparisons; they match where tokens spell a type or a
part of one, even if the reader of types gave up in between.  The closing bracket of
a list of type arguments is therefore found at one place only.
-/

import ErrorAccessors.Proofs.Rereading
import ErrorAccessors.Proofs.Skipping

namespace ErrorAccessors

/-- The marks that enclose something, each with the one that closes it. -/
def Mark.pairs : List (Mark × Mark) :=
  [(.leftParen, .rightParen), (.leftBracket, .rightBracket), (.less, .greater)]

/-- Whether a token may stand inside a statement by itself: it belongs to no pair of
marks, ends nothing and leaves nothing open. -/
def TokenKind.isInner : TokenKind → Bool
  | .mark m =>
    !([.leftBrace, .rightBrace, .leftParen, .rightParen, .leftBracket, .rightBracket, .less,
      .greater, .semicolon] : List Mark).contains m
  | .openString => false
  | _ => true

/-- Tokens inside a statement whose brackets match. -/
inductive Bracketed : List TokenKind → Prop
  | nil : Bracketed []
  | inner {kind : TokenKind} {others : List TokenKind} (isInner : kind.isInner = true)
      (behind : Bracketed others) : Bracketed (kind :: others)
  | group {opening closing : Mark} {inside others : List TokenKind}
      (pair : (opening, closing) ∈ Mark.pairs) (within : Bracketed inside)
      (behind : Bracketed others) :
      Bracketed (.mark opening :: (inside ++ .mark closing :: others))

namespace Bracketed

variable {kinds others : List TokenKind}

theorem append (first : Bracketed kinds) (second : Bracketed others) :
    Bracketed (kinds ++ others) := by
  induction first with
  | nil => exact second
  | inner isInner _ ih => exact .inner isInner ih
  | group pair within _ _ ih =>
      rw [List.cons_append, List.append_assoc, List.cons_append]
      exact .group pair within ih

/-- Brackets around what matches. -/
theorem enclosed {opening closing : Mark} (pair : (opening, closing) ∈ Mark.pairs)
    (within : Bracketed kinds) : Bracketed (.mark opening :: (kinds ++ [.mark closing])) :=
  .group pair within .nil

theorem of_inner (inner : ∀ kind ∈ kinds, kind.isInner = true) : Bracketed kinds := by
  induction kinds with
  | nil => exact .nil
  | cons kind others ih =>
      obtain ⟨first, behind⟩ := List.forall_mem_cons.mp inner
      exact .inner first (ih behind)

/-- Nothing is left open. -/
theorem closed (bracketed : Bracketed kinds) : TokenKind.openString ∉ kinds := by
  induction bracketed with
  | nil => exact List.not_mem_nil
  | @inner kind others isInner _ ih =>
      refine fun member => (List.mem_cons.mp member).elim (fun same => ?_) ih
      rw [← same] at isInner
      cases isInner
  | group pair _ _ ihWithin ihBehind => simp [ihWithin, ihBehind]

end Bracketed

section Angles

/-- Tokens whose angle brackets match. -/
inductive Angled : List TokenKind → Prop
  | nil : Angled []
  | other {kind : TokenKind} {others : List TokenKind}
      (noAngle : kind ≠ .mark .less ∧ kind ≠ .mark .greater) (behind : Angled others) :
      Angled (kind :: others)
  | group {inside others : List TokenKind} (within : Angled inside) (behind : Angled others) :
      Angled (.mark .less :: (inside ++ .mark .greater :: others))

namespace Angled

variable {kinds others : List TokenKind}

theorem append (first : Angled kinds) (second : Angled others) : Angled (kinds ++ others) := by
  induction first with
  | nil => exact second
  | other noAngle _ ih => exact .other noAngle ih
  | group within _ _ ih =>
      rw [List.cons_append, List.append_assoc, List.cons_append]
      exact .group within ih

theorem of_others (noAngles : ∀ kind ∈ kinds, kind ≠ .mark .less ∧ kind ≠ .mark .greater) :
    Angled kinds := by
  induction kinds with
  | nil => exact .nil
  | cons kind others ih =>
      obtain ⟨first, behind⟩ := List.forall_mem_cons.mp noAngles
      exact .other first (ih behind)

/-- A closing angle bracket behind tokens whose angle brackets match is the first one
that closes none of them. -/
theorem unique {first second rest rest' : List TokenKind} (firstMatch : Angled first)
    (secondMatch : Angled second)
    (same : first ++ .mark .greater :: rest = second ++ .mark .greater :: rest') :
    first = second ∧ rest = rest' := by
  induction firstMatch generalizing second rest rest' with
  | nil =>
      cases secondMatch with
      | nil => exact ⟨rfl, (List.cons.inj same).2⟩
      | other noAngle _ => exact absurd (List.cons.inj same).1.symm noAngle.2
      | group _ _ => cases (List.cons.inj same).1
  | other noAngle _ ih =>
      cases secondMatch with
      | nil => exact absurd (List.cons.inj same).1 noAngle.2
      | group _ _ => exact absurd (List.cons.inj same).1 noAngle.1
      | other _ behind =>
          obtain ⟨rfl, sameBehind⟩ := List.cons.inj same
          obtain ⟨rfl, rfl⟩ := ih behind sameBehind
          exact ⟨rfl, rfl⟩
  | group _ _ ihWithin ihBehind =>
      cases secondMatch with
      | nil => cases (List.cons.inj same).1
      | other noAngle _ => exact absurd (List.cons.inj same).1.symm noAngle.1
      | group within behind =>
          simp only [List.cons_append, List.append_assoc, List.cons.injEq, true_and] at same
          obtain ⟨rfl, sameBehind⟩ := ihWithin within same
          obtain ⟨rfl, rfl⟩ := ihBehind behind sameBehind
          exact ⟨rfl, rfl⟩

end Angled

/-- Where all brackets match, the angle brackets do. -/
theorem Bracketed.angled {kinds : List TokenKind} (bracketed : Bracketed kinds) : Angled kinds := by
  induction bracketed with
  | nil => exact .nil
  | inner isInner _ ih =>
      refine .other ⟨?_, ?_⟩ ih <;>
      · rintro rfl
        cases isInner
  | group pair _ _ ihWithin ihBehind =>
      simp only [Mark.pairs, List.mem_cons, Prod.mk.injEq, List.not_mem_nil, or_false] at pair
      obtain ⟨rfl, rfl⟩ | ⟨rfl, rfl⟩ | ⟨rfl, rfl⟩ := pair
      · exact .other (by decide) (ihWithin.append (.other (by decide) ihBehind))
      · exact .other (by decide) (ihWithin.append (.other (by decide) ihBehind))
      · exact .group ihWithin ihBehind

/-- Whatever tokens spell, their angle brackets match. -/
theorem Spells.angled {kinds : List TokenKind} {piece : TypePiece} (spells : Spells kinds piece) :
    Angled kinds := by
  have other {kind : TokenKind} (noAngle : kind ≠ .mark .less ∧ kind ≠ .mark .greater) :
      Angled [kind] := .other noAngle .nil
  have word (name : String) : Angled [.ident name] := other ⟨nofun, nofun⟩
  have commas (count : Nat) : Angled (List.replicate count (.mark .comma)) :=
    .of_others fun kind member => by
      rw [List.eq_of_mem_replicate member]
      decide
  induction spells with
  | keyword _ | plainPart _ => exact word _
  | named _ _ ih | lastPart _ ih | lastArgument _ ih | lastElement _ ih | unclosedElement _ ih
  | noElement _ ih => exact ih
  | qualified _ _ ih => exact (word _).append (.other (by decide) ih)
  | tuple _ ih => exact .other (by decide) (ih.append (other (by decide)))
  | nullable _ ih | pointer _ ih => exact ih.append (other (by decide))
  | array count _ ih =>
      exact ih.append (.other (by decide) ((commas count).append (other (by decide))))
  | genericPart name _ ih => exact .other ⟨nofun, nofun⟩ (.group ih .nil)
  | moreParts _ _ first behind | moreArguments _ _ first behind
  | lastArgumentAndNoType _ _ first behind | moreElements _ _ first behind
  | moreNoElements _ _ first behind => exact first.append (.other (by decide) behind)
  | element name _ ih =>
      refine ih.append (.of_others fun kind member => ?_)
      obtain ⟨name, -, rfl⟩ := List.mem_map.mp member
      exact ⟨nofun, nofun⟩
  | nothing => exact .nil
  | qualifierOnly _ => exact (word _).append (other (by decide))
  | openTuple _ ih => exact .other (by decide) ih
  | openArray count _ ih => exact ih.append (.other (by decide) (commas (count + 1)))

end Angles

namespace Parser

section Skipping

/-- Looking for the closing delimiter passes over tokens whose brackets match. -/
private theorem closing?_of_bracketed {kinds : List TokenKind} (bracketed : Bracketed kinds)
    {tokens : List Token} (areKinds : tokens.map (·.kind) = kinds) (depth : Nat)
    (rest : List Token) : closing? (depth + 1) (tokens ++ rest) = closing? (depth + 1) rest := by
  induction bracketed generalizing tokens depth rest with
  | nil =>
      obtain rfl : tokens = [] := by simpa using areKinds
      rfl
  | @inner kind others isInner _ ih =>
      obtain ⟨token, behind, rfl, isKind, areOthers⟩ := List.map_eq_cons_iff.mp areKinds
      have plain : token.kind.opens = false ∧ token.kind.closes = false := by
        rw [isKind]
        cases kind with
        | mark mark => cases mark <;> simp_all [TokenKind.isInner, TokenKind.opens,
            TokenKind.closes, Mark.opens, Mark.closes]
        | _ => exact ⟨rfl, rfl⟩
      rw [List.cons_append, closing?, plain.1, plain.2]
      exact ih areOthers depth rest
  | @group opening closing inside others pair _ _ ihWithin ihBehind =>
      obtain ⟨first, behind, rfl, opens, areKinds⟩ := List.map_eq_cons_iff.mp areKinds
      obtain ⟨within, behind, rfl, areInside, areKinds⟩ := List.map_eq_append_iff.mp areKinds
      obtain ⟨last, behind, rfl, closes, areOthers⟩ := List.map_eq_cons_iff.mp areKinds
      simp only [List.cons_append, List.append_assoc]
      simp only [Mark.pairs, List.mem_cons, Prod.mk.injEq, List.not_mem_nil, or_false] at pair
      obtain ⟨rfl, rfl⟩ | ⟨rfl, rfl⟩ | ⟨rfl, rfl⟩ := pair <;>
      · rw [closing?, opens]
        simp only [TokenKind.opens, TokenKind.closes, Mark.opens, Mark.closes, if_true,
          Bool.false_eq_true, if_false]
        rw [ihWithin areInside, closing?, closes]
        simp only [TokenKind.opens, TokenKind.closes, Mark.opens, Mark.closes, if_true,
          Bool.false_eq_true, if_false, Nat.add_sub_cancel,
          show ¬depth + 1 + 1 ≤ 1 by omega]
        exact ihBehind areOthers depth rest

/-- Tokens in parentheses or brackets are a delimited part. -/
theorem enclosed_of_bracketed {opening closing : Mark} {kinds : List TokenKind}
    (pair : (opening, closing) ∈ [(Mark.leftParen, Mark.rightParen), (.leftBracket, .rightBracket)])
    (bracketed : Bracketed kinds) {tokens : List Token}
    (areKinds : tokens.map (·.kind) = .mark opening :: (kinds ++ [.mark closing])) :
    Enclosed opening tokens := by
  obtain ⟨first, behind, rfl, opens, areKinds⟩ := List.map_eq_cons_iff.mp areKinds
  obtain ⟨within, behind, rfl, areInside, areKinds⟩ := List.map_eq_append_iff.mp areKinds
  obtain ⟨last, rfl, closes⟩ := List.map_eq_singleton_iff.mp areKinds
  have delimits : opening.opens = true ∧ closing.opens = false ∧ closing.closes = true := by
    simp only [List.mem_cons, Prod.mk.injEq, List.not_mem_nil, or_false] at pair
    obtain ⟨rfl, rfl⟩ | ⟨rfl, rfl⟩ := pair <;> decide
  refine ⟨congrArg some opens, last, ?_⟩
  rw [closing?, opens]
  simp only [TokenKind.opens, delimits.1, if_true]
  rw [closing?_of_bracketed bracketed areInside, closing?, closes]
  simp [TokenKind.opens, TokenKind.closes, delimits]

/-- A way of skipping that stops at no token inside a statement and skips parentheses
and brackets as a whole. -/
structure SkipsInner (action : TokenKind → SkipAction) : Prop where
  inner : ∀ kind : TokenKind, kind.isInner = true → action kind = .step
  angle : action (.mark .less) = .step ∧ action (.mark .greater) = .step
  whole : action (.mark .leftParen) = .whole ∧ action (.mark .leftBracket) = .whole

theorem skipsInner_memberAction : SkipsInner memberAction := by
  refine ⟨fun kind isInner => ?_, by decide, by decide⟩
  cases kind with
  | mark mark => cases mark <;> simp_all [TokenKind.isInner] <;> rfl
  | openString => cases isInner
  | _ => rfl

theorem skipsInner_statementAction : SkipsInner statementAction := by
  refine ⟨fun kind isInner => ?_, by decide, by decide⟩
  cases kind with
  | mark mark => cases mark <;> simp_all [TokenKind.isInner] <;> rfl
  | openString => cases isInner
  | _ => rfl

/-- The head of a type declaration is skipped like a statement. -/
theorem skipsInner_untilAction :
    SkipsInner (untilAction [.leftBrace, .semicolon, .rightBrace]) := by
  refine ⟨fun kind isInner => ?_, by decide, by decide⟩
  cases kind with
  | mark mark => cases mark <;> simp_all [TokenKind.isInner] <;> rfl
  | openString => cases isInner
  | _ => rfl

section Passing

variable {action : TokenKind → SkipAction}

/-- Tokens whose brackets match are skipped whatever comes behind them. -/
theorem skippedBy_of_bracketed (skips : SkipsInner action) {kinds : List TokenKind}
    (bracketed : Bracketed kinds) {tokens : List Token} (areKinds : tokens.map (·.kind) = kinds) :
    SkippedBy action tokens := by
  induction bracketed generalizing tokens with
  | nil =>
      obtain rfl : tokens = [] := by simpa using areKinds
      exact .nil
  | inner isInner _ ih =>
      obtain ⟨token, behind, rfl, isKind, areOthers⟩ := List.map_eq_cons_iff.mp areKinds
      exact .step (isKind ▸ skips.inner _ isInner) (ih areOthers)
  | @group opening closing inside others pair within _ ihWithin ihBehind =>
      rw [← List.singleton_append (l := others), ← List.append_assoc,
        ← List.cons_append] at areKinds
      obtain ⟨group, behind, rfl, areGroup, areOthers⟩ := List.map_eq_append_iff.mp areKinds
      have delimited (isPair : (opening, closing) ∈
          [(Mark.leftParen, Mark.rightParen), (.leftBracket, .rightBracket)])
          (does : action (.mark opening) = .whole) : SkippedBy action (group ++ behind) :=
        .whole does (enclosed_of_bracketed isPair within areGroup) (ihBehind areOthers)
      simp only [Mark.pairs, List.mem_cons, Prod.mk.injEq, List.not_mem_nil, or_false] at pair
      obtain ⟨rfl, rfl⟩ | ⟨rfl, rfl⟩ | ⟨rfl, rfl⟩ := pair
      · exact delimited (by decide) skips.whole.1
      · exact delimited (by decide) skips.whole.2
      · obtain ⟨first, own, rfl, opens, areGroup⟩ := List.map_eq_cons_iff.mp areGroup
        obtain ⟨inner, own, rfl, areInside, areGroup⟩ := List.map_eq_append_iff.mp areGroup
        obtain ⟨last, rfl, closes⟩ := List.map_eq_singleton_iff.mp areGroup
        rw [List.cons_append, List.append_assoc, List.singleton_append]
        exact .step (opens ▸ skips.angle.1)
          ((ihWithin areInside).append (.step (closes ▸ skips.angle.2) (ihBehind areOthers)))

/-- Skipping passes tokens whose brackets match up to a semicolon that it takes along. -/
theorem skipBy_of_bracketed (skips : SkipsInner action)
    (takes : action (.mark .semicolon) = .stepAndStop) {kinds : List TokenKind}
    (bracketed : Bracketed kinds) {tokens : List Token}
    (areKinds : tokens.map (·.kind) = kinds ++ [.mark .semicolon]) (file : SourceFile)
    (previous : Option Token) (rest : List Token) (recorded : List Diagnostic) :
    skipBy action file ⟨previous, tokens ++ rest, recorded⟩ =
      .ok () ⟨Token.lastOf previous tokens, rest, recorded⟩ := by
  obtain ⟨own, last, rfl, areOwn, isLast⟩ := List.map_eq_append_iff.mp areKinds
  obtain ⟨semicolon, rfl, ends⟩ := List.map_eq_singleton_iff.mp isLast
  rw [List.append_assoc, skipBy_of_skipped file previous recorded
    (skippedBy_of_bracketed skips bracketed areOwn), Token.lastOf_append]
  exact skipBy_of_stepAndStop file (congrArg some ends) takes

/-- A member that is not recorded is skipped through its semicolon. -/
theorem skipMember_of_bracketed {kinds : List TokenKind} (bracketed : Bracketed kinds)
    {tokens : List Token} (areKinds : tokens.map (·.kind) = kinds ++ [.mark .semicolon])
    (file : SourceFile) (previous : Option Token) (rest : List Token)
    (recorded : List Diagnostic) :
    skipMember file ⟨previous, tokens ++ rest, recorded⟩ =
      .ok () ⟨Token.lastOf previous tokens, rest, recorded⟩ := by
  rw [skipMember_eq]
  exact skipBy_of_bracketed skipsInner_memberAction rfl bracketed areKinds file previous rest
    recorded

end Passing

end Skipping

section Types

variable {name : String} {file : SourceFile} {previous : Option Token} {tokens rest : List Token}
  {recorded : List Diagnostic}

/-- A type that is a plain name is read in front of what does not continue it. -/
theorem type_of_name (areKinds : tokens.map (·.kind) = [.ident name])
    (ends : (Cursor.mk (Token.lastOf previous tokens) rest recorded).EndsType) :
    ∃ read, type file ⟨previous, tokens ++ rest, recorded⟩ =
      .ok read ⟨Token.lastOf previous tokens, rest, recorded⟩ := by
  have spelled : ∃ written, Spells [.ident name] (.type written) := by
    by_cases known : name ∈ TypeExpr.keywords
    · exact ⟨_, .keyword known⟩
    · exact ⟨_, .named known (.lastPart (.plainPart name))⟩
  obtain ⟨written, spells⟩ := spelled
  obtain ⟨read, -, run⟩ := type_of_spelled spells areKinds ends
  exact ⟨read, run⟩

/-- The arguments of a generic name are all read or none is. -/
private theorem argumentsIfAny_of_angled {depth : Nat} {inside : List TokenKind}
    (areKinds : tokens.map (·.kind) = .mark .less :: (inside ++ [.mark .greater]))
    (angled : Angled inside) (noTypes : ∀ types, ¬Spells inside (.arguments types)) :
    argumentsIfAny (typeWithin depth) file ⟨previous, tokens ++ rest, recorded⟩ =
      .ok [] ⟨previous, tokens ++ rest, recorded⟩ := by
  obtain ⟨opening, behind, rfl, opens, areInside⟩ := List.map_eq_cons_iff.mp areKinds
  have opened : (Cursor.mk previous (opening :: behind ++ rest) recorded).peek? 0 =
      some (.mark .less) := congrArg some opens
  rw [argumentsIfAny_apply, if_pos opened]
  obtain nothing | ⟨types, later, passed, -, passedAre, kinds, spells, passedKinds⟩ :=
    typeArguments_spelled file (forward_typeWithin depth) (typeWithin_spelled depth) opened
  · exact nothing
  · have same : kinds ++ .mark .greater :: later.remaining.map (·.kind) =
        inside ++ .mark .greater :: rest.map (·.kind) := by
      have all := congrArg (List.map (·.kind)) passedAre
      rw [List.map_append, List.map_append, passedKinds, areKinds] at all
      simpa using all.symm
    obtain ⟨rfl, -⟩ := spells.angled.unique angled same
    exact absurd spells (noTypes _)

/-- A generic name is read with its arguments in front of what does not continue it, or
without them if they are no types. -/
theorem type_of_generic {inside : List TokenKind}
    (areKinds : tokens.map (·.kind) = .ident name :: .mark .less :: (inside ++ [.mark .greater]))
    (angled : Angled inside)
    (ends : (Cursor.mk (Token.lastOf previous tokens) rest recorded).EndsType) :
    ∃ read later, type file ⟨previous, tokens ++ rest, recorded⟩ = .ok read later ∧
      (later = ⟨Token.lastOf previous tokens, rest, recorded⟩ ∨
        ∃ token behind, tokens = token :: behind ∧
        later = ⟨some token, behind ++ rest, recorded⟩) := by
  obtain ⟨token, behind, rfl, named, behindKinds⟩ := List.map_eq_cons_iff.mp areKinds
  let here : Cursor := ⟨previous, token :: (behind ++ rest), recorded⟩
  let atBracket : Cursor := ⟨some token, behind ++ rest, recorded⟩
  have next : atBracket.peek? 0 = some (.mark .less) :=
    Cursor.peek?_of_head (by rw [← List.head?_map, behindKinds]; rfl) _ _ _
  have second : here.peek? 1 = some (.mark .less) := by
    rw [← next]
    rfl
  have noParen : here.peek? 0 ≠ some (.mark .leftParen) := by simp [here, named]
  have isName : (here.peek? 0).bind TokenKind.ident? = some name := by
    simp [here, named, TokenKind.ident?]
  -- nothing is read behind the name
  have suffixes (start : Span) (head : TypeExpr) :
      typeSuffixes start head file atBracket = .ok head atBracket := by
    refine loop_of_done file (progresses_suffixRound start) ?_
    simp [suffixRound_apply, next]
  have atName (read : TypeExpr)
      (run : typeWithin (here.remaining.length + 1) file here = .ok read atBracket) :
      ∃ read later, type file here = .ok read later ∧
        (later = ⟨Token.lastOf previous (token :: behind), rest, recorded⟩ ∨
          ∃ first others, token :: behind = first :: others ∧
            later = ⟨some first, others ++ rest, recorded⟩) :=
    ⟨read, atBracket, run, .inr ⟨token, behind, rfl, rfl⟩⟩
  by_cases keyword : name ∈ TypeExpr.keywords
  · refine atName (.predefined name (here.nextSpan file)) ?_
    rw [typeWithin_apply, if_neg noParen, isName]
    simp only [List.contains_iff_mem.mpr keyword, if_true]
    exact suffixes _ _
  by_cases types : ∃ types, Spells inside (.arguments types)
  · obtain ⟨types, spells⟩ := types
    obtain ⟨read, -, run⟩ := type_of_spelled
      (.named keyword (.lastPart (.genericPart name spells))) areKinds ends
    exact ⟨read, _, run, .inl rfl⟩
  · have arguments : argumentsIfAny (typeWithin here.remaining.length) file here.advance =
        .ok [] atBracket := argumentsIfAny_of_angled behindKinds angled (not_exists.mp types)
    have segments : nameSegments (typeWithin here.remaining.length) file here =
        .ok [⟨name, []⟩] atBracket := by
      refine loop_of_done file (progresses_segmentRound (forward_typeWithin _)) ?_
      show segmentRound _ [] file here = _
      simp [segmentRound_apply, isName, arguments, next]
    refine atName (.named none [⟨name, []⟩] (atBracket.spanFrom (here.nextSpan file))) ?_
    rw [typeWithin_apply, if_neg noParen, isName]
    simp [keyword, namedType_apply, second, segments, suffixes]

end Types

end Parser

end ErrorAccessors
