/-
# Fields as they are written

A field in the body of a type: modifiers, a type, a name, and an initialiser behind an equals
sign, whose delimiters are properly nested and in which only the last semicolon stands outside
of them.

Skipping such a member does not look for its end.  It stops behind the first block of the
initialiser that stands outside of other delimiters, unless an equals sign follows the block.
What is left of the initialiser is then read like a member of its own.  The field is passed
over as a whole just if nothing is left.
-/

import ErrorAccessors.Proofs.BodyTokens
import ErrorAccessors.Proofs.WrittenMethod

namespace ErrorAccessors

open ErrorAccessors.Parser

/-- No semicolon stands outside of delimiters, that is behind tokens whose delimiters are
properly nested. -/
def KeepsStatement (kinds : List TokenKind) : Prop :=
  ∀ front behind, kinds = front ++ .mark .semicolon :: behind → ¬Nested front

/-- Every block outside of other delimiters is the end, or an equals sign follows it. -/
def EndsWithBlocks (kinds : List TokenKind) : Prop :=
  ∀ front inside behind,
    kinds = front ++ .mark .leftBrace :: (inside ++ .mark .rightBrace :: behind) →
      Nested front → Nested inside → behind = [] ∨ behind.head? = some (.mark .equals)

/-- What is left of an initialiser behind the first block outside of other delimiters that no
equals sign follows, given the number of delimiters that are open. -/
def leftOver : Nat → List Token → List Token
  | _, [] => []
  | depth, token :: rest =>
    if token.kind.opens then leftOver (depth + 1) rest
    else if token.kind.closes then
      if depth = 1 ∧ token.kind = .mark .rightBrace ∧
          rest.head?.map (·.kind) ≠ some (.mark .equals) then rest
      else leftOver (depth - 1) rest
    else leftOver depth rest

section Initialisers

theorem KeepsStatement.of_token {kind : TokenKind} {others : List TokenKind}
    (keeps : KeepsStatement (kind :: others)) (opens : kind.opens = false)
    (closes : kind.closes = false) : kind ≠ .mark .semicolon ∧ KeepsStatement others := by
  constructor
  · rintro rfl
    exact keeps [] others rfl .nil
  · intro front behind isSplit nested
    exact keeps (kind :: front) behind (congrArg (kind :: ·) isSplit) (.token opens closes nested)

theorem KeepsStatement.of_group {opening closing : Mark} {inside others : List TokenKind}
    (keeps : KeepsStatement (.mark opening :: (inside ++ .mark closing :: others)))
    (pair : (opening, closing) ∈ Mark.delimiters) (within : Nested inside) :
    KeepsStatement others := by
  intro front behind isSplit nested
  refine keeps (.mark opening :: (inside ++ .mark closing :: front)) behind ?_
    (.group pair within nested)
  rw [isSplit]
  simp

/-- The delimiter behind nested tokens is the first one that closes none of them. -/
theorem Nested.unique {first second rest others : List TokenKind} {closing other : Mark}
    (firstNested : Nested first) (secondNested : Nested second) (closes : closing.closes = true)
    (otherCloses : other.closes = true)
    (same : first ++ .mark closing :: rest = second ++ .mark other :: others) :
    first = second ∧ closing = other ∧ rest = others := by
  have noOpening {mark : Mark} (closes : mark.closes = true) : mark.opens = false := by
    cases mark <;> first | rfl | cases closes
  induction firstNested generalizing second rest others closing other with
  | nil =>
      cases secondNested with
      | nil =>
          obtain ⟨isMark, sameRest⟩ := List.cons.inj same
          exact ⟨rfl, TokenKind.mark.inj isMark, sameRest⟩
      | token _ noClosing _ =>
          obtain ⟨rfl, -⟩ := List.cons.inj same
          exact absurd closes (Bool.eq_false_iff.mp noClosing)
      | group pair _ _ =>
          obtain ⟨isMark, -⟩ := List.cons.inj same
          obtain rfl := TokenKind.mark.inj isMark
          exact absurd (Mark.delimits pair).1 (Bool.eq_false_iff.mp (noOpening closes))
  | token opens noClosing _ ih =>
      cases secondNested with
      | nil =>
          obtain ⟨rfl, -⟩ := List.cons.inj same
          exact absurd otherCloses (Bool.eq_false_iff.mp noClosing)
      | token _ _ behind =>
          rw [List.cons_append, List.cons_append, List.cons.injEq] at same
          obtain ⟨rfl, sameBehind⟩ := same
          obtain ⟨rfl, sameMark, sameRest⟩ := ih behind closes otherCloses sameBehind
          exact ⟨rfl, sameMark, sameRest⟩
      | group pair _ _ =>
          obtain ⟨rfl, -⟩ := List.cons.inj same
          exact absurd (Mark.delimits pair).1 (Bool.eq_false_iff.mp opens)
  | group pair _ _ ihWithin ihBehind =>
      obtain ⟨isOpening, -, isClosing⟩ := Mark.delimits pair
      cases secondNested with
      | nil =>
          obtain ⟨isMark, -⟩ := List.cons.inj same
          obtain rfl := TokenKind.mark.inj isMark
          exact absurd isOpening (Bool.eq_false_iff.mp (noOpening otherCloses))
      | token opens _ _ =>
          obtain ⟨rfl, -⟩ := List.cons.inj same
          exact absurd isOpening (Bool.eq_false_iff.mp opens)
      | group otherPair within behind =>
          simp only [List.cons_append, List.append_assoc, List.cons.injEq] at same
          obtain ⟨isMark, sameInside⟩ := same
          obtain ⟨rfl, sameClosing, sameBehind⟩ :=
            ihWithin within isClosing (Mark.delimits otherPair).2.2 sameInside
          obtain ⟨rfl, sameMark, sameRest⟩ := ihBehind behind closes otherCloses sameBehind
          rw [isMark, sameClosing]
          exact ⟨rfl, sameMark, sameRest⟩

/-- Inside of other delimiters nothing is left. -/
theorem leftOver_of_nested {kinds : List TokenKind} (nested : Nested kinds) {tokens : List Token}
    (areKinds : tokens.map (·.kind) = kinds) (depth : Nat) (rest : List Token) :
    leftOver (depth + 1) (tokens ++ rest) = leftOver (depth + 1) rest := by
  induction nested generalizing tokens depth rest with
  | nil =>
      obtain rfl := List.map_eq_nil_iff.mp areKinds
      rfl
  | token opens closes _ ih =>
      obtain ⟨token, behind, rfl, rfl, areOthers⟩ := List.map_eq_cons_iff.mp areKinds
      rw [List.cons_append, leftOver, opens, closes]
      exact ih areOthers depth rest
  | group pair _ _ ihWithin ihBehind =>
      obtain ⟨first, behind, rfl, opens, areKinds⟩ := List.map_eq_cons_iff.mp areKinds
      obtain ⟨within, behind, rfl, areInside, areKinds⟩ := List.map_eq_append_iff.mp areKinds
      obtain ⟨last, behind, rfl, closes, areOthers⟩ := List.map_eq_cons_iff.mp areKinds
      obtain ⟨isOpening, noOpening, isClosing⟩ := Mark.delimits pair
      have outer : ¬(depth + 1 + 1 = 1 ∧ last.kind = .mark .rightBrace ∧
          (behind ++ rest).head?.map (·.kind) ≠ some (.mark .equals)) := by omega
      simp only [List.cons_append, List.append_assoc]
      rw [leftOver, opens]
      simp only [TokenKind.opens, isOpening, if_true]
      rw [ihWithin areInside, leftOver, if_neg outer, closes]
      simp only [TokenKind.opens, TokenKind.closes, noOpening, isClosing, if_true,
        Bool.false_eq_true, if_false, Nat.add_sub_cancel]
      exact ihBehind areOthers depth rest

theorem length_leftOver_le (depth : Nat) (tokens : List Token) :
    (leftOver depth tokens).length ≤ tokens.length := by
  induction tokens generalizing depth with
  | nil => exact Nat.le_refl _
  | cons token rest ih =>
      rw [leftOver]
      split
      · exact Nat.le_succ_of_le (ih _)
      · split
        · split
          · exact Nat.le_succ _
          · exact Nat.le_succ_of_le (ih _)
        · exact Nat.le_succ_of_le (ih _)

/-- A part in delimiters at the beginning is left only if it is a block that no equals sign
follows. -/
theorem leftOver_of_group {opening closing : Mark} {inside : List TokenKind}
    (pair : (opening, closing) ∈ Mark.delimiters) (within : Nested inside)
    {group others : List Token}
    (areGroup : group.map (·.kind) = .mark opening :: (inside ++ [.mark closing])) :
    leftOver 0 (group ++ others) =
      if closing = .rightBrace ∧ others.head?.map (·.kind) ≠ some (.mark .equals) then others
      else leftOver 0 others := by
  obtain ⟨first, behind, rfl, opens, areGroup⟩ := List.map_eq_cons_iff.mp areGroup
  obtain ⟨within', behind, rfl, areInside, areGroup⟩ := List.map_eq_append_iff.mp areGroup
  obtain ⟨last, rfl, closes⟩ := List.map_eq_singleton_iff.mp areGroup
  obtain ⟨isOpening, noOpening, isClosing⟩ := Mark.delimits pair
  rw [List.cons_append, List.append_assoc, List.singleton_append, leftOver, opens]
  simp only [TokenKind.opens, isOpening, if_true]
  rw [leftOver_of_nested within areInside, leftOver, closes]
  simp [TokenKind.opens, TokenKind.closes, noOpening, isClosing]

theorem endsWithBlocks_token {kind : TokenKind} {others : List TokenKind}
    (opens : kind.opens = false) (closes : kind.closes = false) :
    EndsWithBlocks (kind :: others) ↔ EndsWithBlocks others := by
  constructor
  · intro ends front inside behind isSplit nested within
    refine ends (kind :: front) inside behind ?_ (.token opens closes nested) within
    rw [isSplit, List.cons_append]
  · intro ends front inside behind isSplit nested within
    cases nested with
    | nil =>
        obtain ⟨rfl, -⟩ := List.cons.inj isSplit
        cases opens
    | token _ _ nested =>
        obtain ⟨-, isSplit⟩ := List.cons.inj isSplit
        exact ends _ inside behind isSplit nested within
    | group pair _ _ =>
        obtain ⟨rfl, -⟩ := List.cons.inj isSplit
        exact absurd (Mark.delimits pair).1 (Bool.eq_false_iff.mp opens)

theorem endsWithBlocks_group {opening closing : Mark} {inside others : List TokenKind}
    (pair : (opening, closing) ∈ Mark.delimiters) (within : Nested inside) :
    EndsWithBlocks (.mark opening :: (inside ++ .mark closing :: others)) ↔
      (closing = .rightBrace → others = [] ∨ others.head? = some (.mark .equals)) ∧
        EndsWithBlocks others := by
  obtain ⟨isOpening, -, isClosing⟩ := Mark.delimits pair
  constructor
  · intro ends
    refine ⟨?_, ?_⟩
    · rintro rfl
      obtain rfl : opening = .leftBrace := by
        simpa [Mark.delimiters] using pair
      exact ends [] inside others rfl .nil within
    · intro front inner behind isSplit nested innerNested
      refine ends (.mark opening :: (inside ++ .mark closing :: front)) inner behind ?_
        (.group pair within nested) innerNested
      rw [isSplit]
      simp
  · rintro ⟨first, ends⟩ front inner behind isSplit nested innerNested
    cases nested with
    | nil =>
        obtain ⟨-, isSplit⟩ := List.cons.inj isSplit
        obtain ⟨-, isBrace, rfl⟩ := within.unique innerNested isClosing rfl isSplit
        exact first isBrace
    | token opens _ _ =>
        obtain ⟨rfl, -⟩ := List.cons.inj isSplit
        exact absurd isOpening (Bool.eq_false_iff.mp opens)
    | group otherPair otherWithin nested =>
        simp only [List.cons_append, List.append_assoc, List.cons.injEq] at isSplit
        obtain ⟨-, -, rfl⟩ :=
          within.unique otherWithin isClosing (Mark.delimits otherPair).2.2 isSplit.2
        exact ends _ inner behind rfl nested innerNested

/-- Nothing is left just if the blocks end the initialiser. -/
theorem leftOver_eq_nil_iff {kinds : List TokenKind} (nested : Nested kinds) {tokens : List Token}
    (areKinds : tokens.map (·.kind) = kinds) : leftOver 0 tokens = [] ↔ EndsWithBlocks kinds := by
  induction nested generalizing tokens with
  | nil =>
      obtain rfl := List.map_eq_nil_iff.mp areKinds
      refine ⟨fun _ front inside behind isSplit _ _ => ?_, fun _ => rfl⟩
      simp at isSplit
  | token opens closes _ ih =>
      obtain ⟨token, behind, rfl, rfl, areOthers⟩ := List.map_eq_cons_iff.mp areKinds
      rw [leftOver, opens, closes, endsWithBlocks_token opens closes]
      exact ih areOthers
  | @group opening closing inside others pair within _ _ ih =>
      rw [← List.singleton_append (l := others), ← List.append_assoc,
        ← List.cons_append] at areKinds
      obtain ⟨group, behind, rfl, areGroup, rfl⟩ := List.map_eq_append_iff.mp areKinds
      rw [leftOver_of_group pair within areGroup, endsWithBlocks_group pair within, List.head?_map]
      by_cases stops : closing = .rightBrace ∧ behind.head?.map (·.kind) ≠ some (.mark .equals)
      · rw [if_pos stops]
        constructor
        · rintro rfl
          exact ⟨fun _ => .inl rfl, (ih rfl).mp rfl⟩
        · rintro ⟨first, -⟩
          exact List.map_eq_nil_iff.mp ((first stops.1).resolve_right stops.2)
      · rw [if_neg stops, ih rfl]
        refine ⟨fun ends => ⟨fun isBrace => ?_, ends⟩, And.right⟩
        exact .inr (Classical.byContradiction fun differs => stops ⟨isBrace, differs⟩)

/-- A token that no delimiter is and that ends no statement is skipped by itself. -/
private theorem memberAction_of_token {kind : TokenKind} (opens : kind.opens = false)
    (closes : kind.closes = false) (inner : kind ≠ .mark .semicolon) :
    memberAction kind = .step := by
  cases kind with
  | mark mark =>
      cases mark <;>
        first
          | rfl
          | exact absurd rfl inner
          | exact absurd opens (by decide)
          | exact absurd closes (by decide)
  | _ => rfl

/-- Parentheses and brackets are skipped as a whole, and a block ends the member. -/
private theorem memberAction_of_delimiters {opening closing : Mark}
    (pair : (opening, closing) ∈ Mark.delimiters) :
    memberAction (.mark opening) = .whole ∧ closing ≠ .rightBrace ∨
      memberAction (.mark opening) = .block ∧ closing = .rightBrace := by
  simp only [Mark.delimiters, List.mem_cons, Prod.mk.injEq, List.not_mem_nil, or_false] at pair
  obtain ⟨rfl, rfl⟩ | ⟨rfl, rfl⟩ | ⟨rfl, rfl⟩ := pair
  · exact .inl ⟨rfl, by decide⟩
  · exact .inl ⟨rfl, by decide⟩
  · exact .inr ⟨rfl, rfl⟩

/-- Skipping from the initialiser on ends behind the semicolon, or in front of what is left. -/
theorem skipBy_of_initialiser {kinds : List TokenKind} (nested : Nested kinds)
    (keeps : KeepsStatement kinds) {tokens : List Token} (areKinds : tokens.map (·.kind) = kinds)
    {ending : Token} (ends : ending.kind = .mark .semicolon) (file : SourceFile)
    (previous : Option Token) (rest : List Token) (recorded : List Diagnostic) :
    ∃ last left, skipBy memberAction file ⟨previous, tokens ++ ending :: rest, recorded⟩ =
        .ok () ⟨last, left, recorded⟩ ∧
      (left = leftOver 0 tokens ++ ending :: rest ∨ leftOver 0 tokens = [] ∧ left = rest) := by
  induction nested generalizing tokens previous with
  | nil =>
      obtain rfl := List.map_eq_nil_iff.mp areKinds
      refine ⟨some ending, rest, ?_, .inr ⟨rfl, rfl⟩⟩
      exact skipBy_of_stepAndStop file (congrArg some ends) rfl
  | token opens closes _ ih =>
      obtain ⟨token, behind, rfl, rfl, areOthers⟩ := List.map_eq_cons_iff.mp areKinds
      obtain ⟨inner, keeps⟩ := keeps.of_token opens closes
      obtain ⟨last, left, run, isLeft⟩ := ih keeps areOthers (some token)
      refine ⟨last, left, ?_, ?_⟩
      · have isStep : SkippedBy memberAction [token] :=
          .step (memberAction_of_token opens closes inner) .nil
        exact (skipBy_of_skipped file previous recorded isStep).trans run
      · rw [leftOver, opens, closes]
        exact isLeft
  | @group opening closing inside others pair within _ _ ih =>
      have keeps := keeps.of_group pair within
      rw [← List.singleton_append (l := others), ← List.append_assoc,
        ← List.cons_append] at areKinds
      obtain ⟨group, behind, rfl, areGroup, areOthers⟩ := List.map_eq_append_iff.mp areKinds
      have enclosed := enclosed_of_nested pair within areGroup
      obtain ⟨final, closed⟩ := enclosed.closed
      obtain ⟨last, left, run, isLeft⟩ := ih keeps areOthers (Token.lastOf previous group)
      rw [leftOver_of_group pair within areGroup, List.append_assoc]
      -- the part in delimiters is passed, and what comes behind it decides whether to go on
      let here : Cursor := ⟨previous, group ++ (behind ++ ending :: rest), recorded⟩
      let there : Cursor := ⟨Token.lastOf previous group, behind ++ ending :: rest, recorded⟩
      have next : here.peek? 0 = some (.mark opening) :=
        Cursor.peek?_of_head enclosed.opens previous _ recorded
      have skips : skipBalanced file here = .ok () there :=
        skipBalanced_of_closed file previous recorded closed
      have goesOn (round : skipRound memberAction () file here = .ok (.yield ()) there) :
          skipBy memberAction file here = .ok () ⟨last, left, recorded⟩ :=
        (loop_of_yield file (progresses_skipRound memberAction) round).trans run
      obtain ⟨does, noBlock⟩ | ⟨does, rfl⟩ := memberAction_of_delimiters pair
      · refine ⟨last, left, goesOn ?_, ?_⟩
        · rw [skipRound_apply, next]
          simp only [does, skips]
        · rw [if_neg (fun stops => noBlock stops.1)]
          exact isLeft
      · have assigned : there.peek? 0 = some (.mark .equals) ↔
            behind.head?.map (·.kind) = some (.mark .equals) := by
          cases behind with
          | nil => simp [there, ends]
          | cons token behind => simp [there]
        by_cases isAssigned : behind.head?.map (·.kind) = some (.mark .equals)
        · refine ⟨last, left, goesOn ?_, ?_⟩
          · rw [skipRound_apply, next]
            simp only [does, skips, assigned.mpr isAssigned, if_true]
          · rw [if_neg (fun stops => stops.2 isAssigned)]
            exact isLeft
        · have stops : skipBy memberAction file here = .ok () there := by
            refine loop_of_done file (progresses_skipRound memberAction) ?_
            rw [skipRound_apply, next]
            simp only [does, skips, if_neg (fun comes => isAssigned (assigned.mp comes))]
          refine ⟨_, _, stops, .inl ?_⟩
          rw [if_pos ⟨rfl, isAssigned⟩]

end Initialisers

/-- A field as it is written in a file. -/
structure WrittenField (file : SourceFile) where
  wordTokens : List Token
  typeTokens : List Token
  type : TypeExpr
  nameToken : Token
  name : String
  equals : Token
  initial : List Token
  ending : Token
  words_modify : ∀ token ∈ wordTokens, token.IsModifier
  words_end : wordTokens ≠ [] → typeTokens.head?.map (·.kind) ≠ some (.mark .leftParen)
  type_read : ∃ last, Parser.type file (Cursor.start typeTokens) = .ok type ⟨last, [], []⟩
  type_plain : ∀ word, typeTokens.head?.map (·.kind) = some (.ident word) →
    word ∉ modifierWords ∧ word ∉ typeWords ∧ word ∉ otherMemberWords
  name_kind : nameToken.kind = .ident name
  equals_kind : equals.kind = .mark .equals
  initial_nested : Nested (initial.map (·.kind))
  initial_keeps : KeepsStatement (initial.map (·.kind))
  ending_kind : ending.kind = .mark .semicolon

namespace WrittenField

variable {file : SourceFile} (field : WrittenField file)

/-- What is written behind the type. -/
def tailTokens : List Token :=
  field.nameToken :: field.equals :: (field.initial ++ [field.ending])

/-- Everything that is written. -/
def tokens : List Token :=
  field.wordTokens ++ (field.typeTokens ++ field.tailTokens)

section Parts

variable (previous : Option Token) (rest : List Token) (recorded : List Diagnostic)

private theorem type_spells :
    Spells (field.typeTokens.map (·.kind)) (.type field.type.unplaced) := by
  obtain ⟨last, run⟩ := field.type_read
  obtain ⟨tokens, passed, spells⟩ := type_spelled run
  obtain rfl : field.typeTokens = tokens := by simpa [Cursor.start] using passed
  exact spells

/-- The type is read in front of the name. -/
private theorem type_again : ∃ read,
    Parser.type file ⟨previous, field.typeTokens ++ (field.tailTokens ++ rest), recorded⟩ =
      .ok read ⟨Token.lastOf previous field.typeTokens, field.tailTokens ++ rest, recorded⟩ := by
  have ends : (Cursor.mk (Token.lastOf previous field.typeTokens) (field.tailTokens ++ rest)
      recorded).EndsType := by
    have next : (Cursor.mk (Token.lastOf previous field.typeTokens) (field.tailTokens ++ rest)
        recorded).peek? 0 = some (.ident field.name) := congrArg some field.name_kind
    apply Cursor.EndsType.of_kind next
    simp [TokenKind.isIdent, TokenKind.ident?]
  obtain ⟨read, -, run⟩ := rereads_type field.type_spells file previous field.typeTokens _
    recorded (.refl file _) ends
  exact ⟨read, run⟩

/-- What is left when the field has been skipped: what its initialiser leaves, or nothing. -/
def Leaves (left : List Token) : Prop :=
  left = leftOver 0 field.initial ++ field.ending :: rest ∨
    leftOver 0 field.initial = [] ∧ left = rest

/-- Words and the equals sign in front of the initialiser are skipped with it. -/
private theorem skipMember_again {front : List Token} (steps : SkippedBy memberAction front) :
    ∃ last left, field.Leaves rest left ∧
      skipMember file
          ⟨previous, front ++ field.equals :: (field.initial ++ field.ending :: rest), recorded⟩ =
        .ok () ⟨last, left, recorded⟩ := by
  have isStep : SkippedBy memberAction (front ++ [field.equals]) := by
    apply steps.append
    exact .step (by rw [field.equals_kind]; rfl) .nil
  obtain ⟨last, left, run, leaves⟩ := skipBy_of_initialiser field.initial_nested
    field.initial_keeps rfl field.ending_kind file
    (Token.lastOf previous (front ++ [field.equals])) rest recorded
  refine ⟨last, left, leaves, ?_⟩
  rw [skipMember_eq, ← run, ← skipBy_of_skipped file previous recorded isStep, List.append_assoc]
  rfl

/-- No parameter list comes behind the name, so the rest of the member is skipped. -/
private theorem tail_again :
    ∃ last left, field.Leaves rest left ∧
      methodTail file ⟨previous, field.tailTokens ++ rest, recorded⟩ =
        .ok none ⟨last, left, recorded⟩ := by
  let atName : Cursor := ⟨previous, field.nameToken :: field.equals ::
    (field.initial ++ field.ending :: rest), recorded⟩
  have tokensAre : (Cursor.mk previous (field.tailTokens ++ rest) recorded) = atName := by
    simp [tailTokens, atName]
  have named : atName.peek? 0 = some (.ident field.name) := congrArg some field.name_kind
  rw [tokensAre]
  by_cases ordinary : field.name ≠ "operator" ∧ field.name ≠ "this"
  · have equalsNext : atName.advance.peek? 0 = some (.mark .equals) :=
      congrArg some field.equals_kind
    have noParameters : parametersIfAny [] file atName.advance = .ok [] atName.advance := by
      rw [parametersIfAny_apply, equalsNext, if_neg (by simp)]
    have nameRead := memberName_of_parameters named noParameters (by simp [equalsNext])
    obtain ⟨last, left, leaves, run⟩ :=
      field.skipMember_again (some field.nameToken) rest recorded .nil
    refine ⟨last, left, leaves, ?_⟩
    rw [methodTail_of_noList named ordinary nameRead (by simp [equalsNext]), bind_apply]
    have skipped : skipMember file atName.advance = .ok () ⟨last, left, recorded⟩ := run
    rw [skipped]
    rfl
  · have isStep : SkippedBy memberAction [field.nameToken] :=
      .step (by rw [field.name_kind]; rfl) .nil
    obtain ⟨last, left, leaves, run⟩ := field.skipMember_again previous rest recorded isStep
    refine ⟨last, left, leaves, ?_⟩
    have noName :
        ∀ name, atName.peek? 0 = some (.ident name) → name = "operator" ∨ name = "this" := by
      intro name isName
      obtain rfl : field.name = name := by simpa [named] using isName
      exact Decidable.or_iff_not_not_and_not.mpr ordinary
    rw [methodTail_of_noName noName, bind_apply]
    have skipped : skipMember file atName = .ok () ⟨last, left, recorded⟩ := run
    rw [skipped]
    rfl

/-- The modifiers are read in front of the type. -/
private theorem words_again :
    ∃ words, modifiers file
        ⟨previous, field.wordTokens ++ (field.typeTokens ++ (field.tailTokens ++ rest)), recorded⟩ =
      .ok words ⟨Token.lastOf previous field.wordTokens,
        field.typeTokens ++ (field.tailTokens ++ rest), recorded⟩ := by
  have named : (field.tailTokens ++ rest).head?.map (·.kind) = some (.ident field.name) :=
    congrArg some field.name_kind
  obtain ⟨endsWords, -, -⟩ := beginsMethod_of_spelled field.type_spells named
    (Token.lastOf previous field.wordTokens) recorded field.type_plain
  have noParen : field.wordTokens ≠ [] →
      (field.typeTokens ++ (field.tailTokens ++ rest)).head?.map (·.kind) ≠
        some (.mark .leftParen) := by
    intro nonempty paren
    refine field.words_end nonempty ?_
    obtain ⟨head, -⟩ | ⟨word, head, next, -⟩ :=
      next_of_spelled field.type_spells named previous recorded
    · exact head
    · rw [Cursor.peek?, ← List.head?_eq_getElem?, paren] at next
      cases next
  obtain ⟨words, -, run⟩ := modifiers_of_words file field.words_modify previous recorded endsWords
    noParen
  exact ⟨words, run⟩

/-- What a field begins with. -/
private theorem begins :
    ∃ kind, (kind.isIdent = true ∨ kind = .mark .leftParen) ∧
      (Cursor.mk previous (field.tokens ++ rest) recorded).peek? 0 = some kind := by
  obtain ⟨kind, begins, head⟩ := next_of_words field.words_modify field.type_spells
    (field.tailTokens ++ rest)
  refine ⟨kind, begins, ?_⟩
  rw [Cursor.peek?, ← List.head?_eq_getElem?, ← head]
  simp [tokens]

end Parts

section Reading

variable (nested : Span → List AttributeList → List Modifier → Parser TypeDecl)
  (previous : Option Token) (rest : List Token) (recorded : List Diagnostic)

/-- A field is read as no member. -/
private theorem typeMember_again :
    ∃ last left, field.Leaves rest left ∧
      typeMember nested file ⟨previous, field.tokens ++ rest, recorded⟩ =
        .ok none ⟨last, left, recorded⟩ := by
  obtain ⟨kind, begins, next⟩ := field.begins previous rest recorded
  have differs (mark : Mark) (noParen : mark ≠ .leftParen) :
      (Cursor.mk previous (field.tokens ++ rest) recorded).peek? 0 ≠ some (.mark mark) := by
    intro comes
    rw [next, Option.some.injEq] at comes
    subst comes
    simp [TokenKind.isIdent, TokenKind.ident?, noParen] at begins
  obtain ⟨words, wordsRun⟩ := field.words_again previous rest recorded
  obtain ⟨read, typeRun⟩ :=
    field.type_again (Token.lastOf previous field.wordTokens) rest recorded
  obtain ⟨last, left, leaves, tailRun⟩ :=
    field.tail_again (Token.lastOf (Token.lastOf previous field.wordTokens) field.typeTokens) rest
      recorded
  have named : (field.tailTokens ++ rest).head?.map (·.kind) = some (.ident field.name) :=
    congrArg some field.name_kind
  obtain ⟨-, noType, noOther⟩ := beginsMethod_of_spelled field.type_spells named
    (Token.lastOf previous field.wordTokens) recorded field.type_plain
  have isSplit : field.tokens ++ rest =
      field.wordTokens ++ (field.typeTokens ++ (field.tailTokens ++ rest)) := by
    simp [tokens]
  refine ⟨last, left, leaves, ?_⟩
  rw [typeMember_apply, if_neg (differs .semicolon (by decide)),
    attributeLists_of_none file (differs .leftBracket (by decide))]
  simp only [isSplit, wordsRun, noType, noOther, Bool.false_eq_true, if_false, method?_apply,
    typeRun, tailRun, Option.map_none]

/-- A body does not end, and no fault comes, in front of a token that begins a member. -/
private theorem memberLoop_of_next {depth : Nat} {cursor later : Cursor} {kind : TokenKind}
    (next : cursor.peek? 0 = some kind) (noBrace : kind ≠ .mark .rightBrace)
    (noFault : ∀ spelling, kind ≠ .fault spelling)
    (run : typeMember (typeDeclWithin depth) file cursor = .ok none later)
    (passes : later.remaining.length < cursor.remaining.length) (found : List TypeMember) :
    memberLoop atBodyEnd (typeMember (typeDeclWithin depth)) (fun found member => found ++ [member])
        found file cursor =
      memberLoop atBodyEnd (typeMember (typeDeclWithin depth))
        (fun found member => found ++ [member])
        found file later := by
  have goesOn : atBodyEnd file cursor = .ok false cursor := by
    have notEmpty : cursor.remaining.isEmpty = false := by
      obtain ⟨token, -, remaining⟩ := Cursor.remaining_eq_cons next
      rw [remaining]
      rfl
    simp [atBodyEnd_apply, next, noBrace, notEmpty]
  have faultless (spelling : String) : cursor.peek? 0 ≠ some (.fault spelling) := by
    rw [next]
    exact fun fault => noFault spelling (Option.some.inj fault)
  exact memberLoop_of_read stopsAtEnd_atBodyEnd
    (forward_typeMember _ (forward_typeDeclWithin depth))
    goesOn faultless run passes found

/-- A semicolon by itself is read as no member. -/
private theorem memberLoop_of_semicolon {depth : Nat} {ending : Token}
    (ends : ending.kind = .mark .semicolon) (last : Option Token) (rest : List Token)
    (recorded : List Diagnostic) (found : List TypeMember) :
    memberLoop atBodyEnd (typeMember (typeDeclWithin depth)) (fun found member => found ++ [member])
        found file ⟨last, ending :: rest, recorded⟩ =
      memberLoop atBodyEnd (typeMember (typeDeclWithin depth))
        (fun found member => found ++ [member])
        found file ⟨some ending, rest, recorded⟩ := by
  have comes : (Cursor.mk last (ending :: rest) recorded).peek? 0 = some (.mark .semicolon) :=
    congrArg some ends
  have run : typeMember (typeDeclWithin depth) file ⟨last, ending :: rest, recorded⟩ =
      .ok none ⟨some ending, rest, recorded⟩ := by
    rw [typeMember_apply, if_pos comes]
    rfl
  exact memberLoop_of_next comes (by decide) (by simp) run (Nat.lt_succ_self _) found

/-- A field is read as no member, and what its initialiser leaves is read as if it stood in the
place of the field.  A field whose initialiser ends with its blocks leaves nothing: the members
behind it are read as if there were no field. -/
theorem members_behind (depth : Nat) (found : List TypeMember) :
    let here : Cursor := ⟨previous, field.tokens ++ rest, recorded⟩
    let member := typeMember (typeDeclWithin depth)
    let members := memberLoop atBodyEnd member fun found member => found ++ [member]
    let left := leftOver 0 field.initial
    (∃ last left, member file here = .ok none ⟨last, left, recorded⟩) ∧
      (EndsWithBlocks (field.initial.map (·.kind)) →
        members found file here = members found file ⟨some field.ending, rest, recorded⟩) ∧
      (¬EndsWithBlocks (field.initial.map (·.kind)) → left ≠ [] ∧
        ∃ passed, field.tokens = passed ++ (left ++ [field.ending]) ∧
          members found file here =
            members found file
              ⟨Token.lastOf previous passed, left ++ field.ending :: rest, recorded⟩) := by
  intro here member members left
  have forward : Forward member := forward_typeMember _ (forward_typeDeclWithin depth)
  obtain ⟨last, behind, leaves, run⟩ :=
    field.typeMember_again (typeDeclWithin depth) previous rest recorded
  obtain ⟨kind, begins, next⟩ := field.begins previous rest recorded
  obtain ⟨⟨passed, isSplit, isLast⟩, -⟩ := forward.of_ok run
  have endsNested : left = [] ↔ EndsWithBlocks (field.initial.map (·.kind)) :=
    leftOver_eq_nil_iff field.initial_nested rfl
  have fewer : behind.length < (field.tokens ++ rest).length := by
    have atMost := length_leftOver_le 0 field.initial
    simp only [tokens, tailTokens, List.length_append, List.length_cons, List.length_nil]
    obtain rfl | ⟨-, rfl⟩ := leaves
    · rw [List.length_append, List.length_cons]
      omega
    · omega
  have goesOn : members found file here = members found file ⟨last, behind, recorded⟩ := by
    apply memberLoop_of_next next _ _ run fewer found
    · rintro rfl
      simp [TokenKind.isIdent, TokenKind.ident?] at begins
    · rintro spelling rfl
      simp [TokenKind.isIdent, TokenKind.ident?] at begins
  refine ⟨⟨last, behind, run⟩, ?_, ?_⟩
  · intro ends
    have nothing : left = [] := endsNested.mpr ends
    obtain rfl | ⟨-, rfl⟩ := leaves
    · -- the semicolon has been left
      have isEmpty : leftOver 0 field.initial = [] := nothing
      rw [goesOn, isEmpty]
      exact memberLoop_of_semicolon field.ending_kind last rest recorded found
    · obtain rfl : field.tokens = passed := List.append_cancel_right isSplit
      obtain rfl : last = some field.ending := by
        simpa [tokens, tailTokens] using isLast
      exact goesOn
  · intro ends
    have some : left ≠ [] := fun nothing => ends (endsNested.mp nothing)
    obtain rfl | ⟨nothing, -⟩ := leaves
    · refine ⟨some, passed, ?_, ?_⟩
      · have isSplit : field.tokens ++ rest = passed ++ (left ++ [field.ending]) ++ rest := by
          rw [List.append_assoc, List.append_assoc]
          exact isSplit
        exact List.append_cancel_right isSplit
      · obtain rfl : last = Token.lastOf previous passed := isLast
        exact goesOn
    · exact absurd nothing some

end Reading

section Arrays

theorem keepsStatement_of_not_mem {kinds : List TokenKind} (inner : .mark .semicolon ∉ kinds) :
    KeepsStatement kinds := by
  rintro front behind rfl
  exact absurd (List.mem_append_right front List.mem_cons_self) inner

/-- The field `int[] xs` with an initialiser. -/
def arrayField (initial : List TokenKind) (nested : Nested initial)
    (inner : .mark .semicolon ∉ initial) : WrittenField (SourceFile.ofText "" "") where
  wordTokens := []
  typeTokens := WrittenMethod.bare [.ident "int", .mark .leftBracket, .mark .rightBracket]
  type := .array (.predefined "int" .nowhere) 1 .nowhere
  nameToken := ⟨.ident "xs", .nowhere⟩
  name := "xs"
  equals := ⟨.mark .equals, .nowhere⟩
  initial := WrittenMethod.bare initial
  ending := ⟨.mark .semicolon, .nowhere⟩
  words_modify := nofun
  words_end := fun nonempty => absurd rfl nonempty
  type_read := ⟨some ⟨.mark .rightBracket, .nowhere⟩, rfl⟩
  type_plain := by
    intro word isWord
    obtain rfl : "int" = word := by simpa [WrittenMethod.bare] using isWord
    decide
  name_kind := rfl
  equals_kind := rfl
  initial_nested := by simpa [WrittenMethod.bare, Function.comp_def] using nested
  initial_keeps := by
    simpa [WrittenMethod.bare, Function.comp_def] using keepsStatement_of_not_mem inner
  ending_kind := rfl

/-- The elements `{ 1 }`. -/
def elements : List TokenKind :=
  [.mark .leftBrace, .integer 1, .mark .rightBrace]

theorem nested_elements : Nested elements :=
  @Nested.group .leftBrace .rightBrace [.integer 1] [] (by decide) (.token rfl rfl .nil) .nil

/-- The condition `where F(y) select y` of a query. -/
def condition : List TokenKind :=
  [.ident "where", .ident "F", .mark .leftParen, .ident "y", .mark .rightParen, .ident "select",
    .ident "y"]

theorem nested_condition : Nested condition := by
  apply Nested.token rfl rfl
  apply Nested.token rfl rfl
  exact @Nested.group .leftParen .rightParen [.ident "y"] [.ident "select", .ident "y"] (by decide)
    (.token rfl rfl .nil) (.token rfl rfl (.token rfl rfl .nil))

theorem nested_query : Nested (elements ++ condition) :=
  @Nested.group .leftBrace .rightBrace [.integer 1] condition (by decide) (.token rfl rfl .nil)
    nested_condition

/-- A field is read as nothing if its initialiser is a block.  With a condition behind the block,
a method named `F` is read where there is none. -/
theorem members_behind_of_condition :
    let file := SourceFile.ofText "" ""
    let close : Token := ⟨.mark .rightBrace, .nowhere⟩
    let plain := arrayField elements nested_elements (by decide)
    let query := arrayField (elements ++ condition) nested_query (by decide)
    let members := memberLoop atBodyEnd (typeMember (typeDeclWithin 0)) fun found member =>
      found ++ [member]
    members [] file ⟨none, plain.tokens ++ [close], []⟩ =
        .ok [] ⟨some plain.ending, [close], []⟩ ∧
      ∃ method later, method.name = "F" ∧
        members [] file ⟨none, query.tokens ++ [close], []⟩ = .ok [.method method] later := by
  intro file close plain query members
  constructor
  · have ends : EndsWithBlocks (plain.initial.map (·.kind)) :=
      (leftOver_eq_nil_iff plain.initial_nested rfl).mp rfl
    exact (plain.members_behind none [close] [] 0 []).2.1 ends
  · have goesOn : ¬EndsWithBlocks (query.initial.map (·.kind)) := by
      intro ends
      cases (leftOver_eq_nil_iff query.initial_nested rfl).mpr ends
    obtain ⟨-, passed, -, run⟩ := (query.members_behind none [close] [] 0 []).2.2 goesOn
    refine ⟨_, _, ?_, run.trans rfl⟩
    rfl

end Arrays

end WrittenField

end ErrorAccessors
