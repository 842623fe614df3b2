/-
# Types are spaced in one way

In the canonical spelling of a type a blank stands behind the comma between two types and in
front of the name of a tuple element, and nowhere else.  So the spelling is determined by its
tokens.  A text that is put together from types has the same blanks: if it is read as a type at
all, it is the canonical spelling of that type.

The reader of types passes over more than types.  Behind a last comma it passes over a stretch
that looks like a further type argument.  In such a stretch a parenthesis is left open, or the
closing bracket stands behind a comma or two colons.  Neither is found in a text that is put
together from types.
-/

import ErrorAccessors.Proofs.CodeText
import ErrorAccessors.Proofs.ProperTypes
import ErrorAccessors.Proofs.TypeText
import Mathlib.Data.List.Chain

namespace ErrorAccessors

namespace TokenKind

/-- The characters of a word or a mark. -/
def letters : TokenKind → List Char
  | .ident name => name.toList
  | .mark sign => sign.text.toList
  | _ => []

/-- Whether a token may be the first one of a type. -/
def beginsType : TokenKind → Bool
  | .ident _ | .mark .leftParen => true
  | _ => false

/-- Whether a token may be the last one of a type. -/
def endsType : TokenKind → Bool
  | .ident _ => true
  | .mark sign =>
      ([.greater, .question, .star, .rightBracket, .rightParen] : List Mark).contains sign
  | _ => false

/-- What stands between two tokens of a type that are next to each other. -/
def gap (first second : TokenKind) : List Char :=
  if first.endsType && second.isIdent || first == .mark .comma && second.beginsType then [' ']
  else []

/-- A closing angle bracket stands behind a type. -/
def Fits (first second : TokenKind) : Prop :=
  second = .mark .greater → first ≠ .mark .comma ∧ first ≠ .mark .doubleColon

/-- The tokens of a type with the blanks between them. -/
def spacedOut : List TokenKind → List Char
  | [] => []
  | [kind] => kind.letters
  | kind :: next :: others => kind.letters ++ kind.gap next ++ spacedOut (next :: others)

end TokenKind

open TokenKind

section Spacing

variable {kinds more : List TokenKind} {text other : List Char}

/-- Tokens next to each other are spaced like those of a type. -/
structure Spaced (kinds : List TokenKind) (text : List Char) : Prop where
  fits : kinds.IsChain Fits
  isText : spacedOut kinds = text

/-- Tokens in front of others, from which a gap sets them apart. -/
theorem Spaced.append (first : Spaced kinds text) (second : Spaced more other)
    (last next : TokenKind)
    (isLast : kinds.getLast? = some last) (isNext : more.head? = some next)
    (fits : Fits last next) :
    Spaced (kinds ++ more) (text ++ last.gap next ++ other) := by
  refine ⟨List.isChain_append.mpr ⟨first.fits, second.fits, ?_⟩, ?_⟩
  · rw [isLast, isNext]
    rintro _ ⟨⟩ _ ⟨⟩
    exact fits
  · obtain ⟨-, rfl⟩ := first
    obtain ⟨-, rfl⟩ := second
    obtain ⟨behind, rfl⟩ : ∃ behind, more = next :: behind := by
      cases more with
      | nil => cases isNext
      | cons _ behind => exact ⟨behind, by rw [Option.some.inj isNext]⟩
    induction kinds with
    | nil => cases isLast
    | cons kind others ih =>
        cases others with
        | nil =>
            obtain rfl := Option.some.inj isLast
            rfl
        | cons second others =>
            have later := ih (by rwa [List.getLast?_cons_cons] at isLast)
            simp only [List.cons_append, spacedOut, List.append_assoc] at later ⊢
            rw [later]

theorem Spaced.single (kind : TokenKind) : Spaced [kind] kind.letters :=
  ⟨.singleton kind, rfl⟩

/-- Tokens that begin and end as a type does, and are spaced like those of a type. -/
structure SpacedType (kinds : List TokenKind) (text : List Char) : Prop
    extends Spaced kinds text where
  begins : ∃ kind, kinds.head? = some kind ∧ kind.beginsType = true
  ends : ∃ kind, kinds.getLast? = some kind ∧ kind.endsType = true

/-- Whatever ends a type, a closing angle bracket may stand behind it. -/
private theorem fits_of_endsType {last next : TokenKind} (ends : last.endsType = true) :
    Fits last next := by
  intro _
  constructor <;>
  · rintro rfl
    cases ends

private theorem fits_of_beginsType {last next : TokenKind} (begins : next.beginsType = true) :
    Fits last next := by
  rintro rfl
  cases begins

namespace SpacedType

theorem word (name : String) : SpacedType [.ident name] name.toList :=
  ⟨.single _, ⟨_, rfl, rfl⟩, ⟨_, rfl, rfl⟩⟩

/-- Tokens that go on behind a type. -/
private theorem append_spaced (first : SpacedType kinds text) (second : Spaced more other)
    {next : TokenKind} (isNext : more.head? = some next) {gap : List Char}
    (isGap : ∀ last : TokenKind, last.endsType = true → last.gap next = gap)
    (ends : ∃ kind, more.getLast? = some kind ∧ kind.endsType = true) :
    SpacedType (kinds ++ more) (text ++ gap ++ other) := by
  obtain ⟨last, isLast, endsType⟩ := first.ends
  obtain ⟨kind, isFirst, beginsType⟩ := first.begins
  obtain ⟨final, isFinal, finalEnds⟩ := ends
  refine ⟨isGap last endsType ▸
      first.toSpaced.append second last next isLast isNext (fits_of_endsType endsType),
    ⟨kind, ?_, beginsType⟩, ⟨final, ?_, finalEnds⟩⟩
  · rw [List.head?_append, isFirst]
    rfl
  · rw [List.getLast?_append, isFinal]
    rfl

/-- In front of a mark there is no gap. -/
private theorem gap_mark {mark : Mark} (last : TokenKind) (ends : last.endsType = true) :
    last.gap (.mark mark) = [] := by
  have noComma : last ≠ .mark .comma := by
    rintro rfl
    cases ends
  simp [gap, isIdent, ident?, noComma]

/-- A mark in front of a type, whatever is in front of the mark. -/
private theorem behind_mark (mark : Mark) (type : SpacedType kinds text) {gap : List Char}
    (isGap : ∀ next : TokenKind, next.beginsType = true → (TokenKind.mark mark).gap next = gap) :
    Spaced (.mark mark :: kinds) (mark.text.toList ++ gap ++ text) ∧
      ∃ kind, (.mark mark :: kinds).getLast? = some kind ∧ kind.endsType = true := by
  obtain ⟨next, isNext, begins⟩ := type.begins
  obtain ⟨last, isLast, ends⟩ := type.ends
  refine ⟨isGap next begins ▸ (Spaced.single _).append type.toSpaced _ next rfl isNext
    (fits_of_beginsType begins), last, ?_, ends⟩
  rw [List.getLast?_cons, isLast]
  rfl

/-- The marks that stand between parts of a type without a blank. -/
private theorem gap_behind_mark {mark : Mark} (noEnd : (TokenKind.mark mark).endsType = false)
    (noComma : mark ≠ .comma) (next : TokenKind) : (TokenKind.mark mark).gap next = [] := by
  simp [gap, noEnd, noComma]

private theorem append_mark (first : SpacedType kinds text) (mark : Mark)
    (noEnd : (TokenKind.mark mark).endsType = false) (noComma : mark ≠ .comma)
    (second : SpacedType more other) :
    SpacedType (kinds ++ .mark mark :: more) (text ++ mark.text.toList ++ other) := by
  obtain ⟨behind, ends⟩ := second.behind_mark mark fun next _ => gap_behind_mark noEnd noComma next
  simpa using first.append_spaced behind rfl gap_mark ends

theorem append_dot (first : SpacedType kinds text) (second : SpacedType more other) :
    SpacedType (kinds ++ .mark .dot :: more) (text ++ '.' :: other) := by
  simpa [Mark.text] using first.append_mark .dot rfl nofun second

theorem append_colons (first : SpacedType kinds text) (second : SpacedType more other) :
    SpacedType (kinds ++ .mark .doubleColon :: more) (text ++ ':' :: ':' :: other) := by
  simpa [Mark.text] using first.append_mark .doubleColon rfl nofun second

theorem append_comma (first : SpacedType kinds text) (second : SpacedType more other) :
    SpacedType (kinds ++ .mark .comma :: more) (text ++ ',' :: ' ' :: other) := by
  have blank (next : TokenKind) (begins : next.beginsType = true) :
      (TokenKind.mark .comma).gap next = [' '] := by
    simp [gap, begins]
  obtain ⟨behind, ends⟩ := second.behind_mark .comma blank
  simpa [Mark.text] using first.append_spaced behind rfl gap_mark ends

/-- Marks at the end of a type. -/
theorem append_marks (first : SpacedType kinds text) (second : Spaced more other) {mark : Mark}
    (isNext : more.head? = some (.mark mark))
    (ends : ∃ kind, more.getLast? = some kind ∧ kind.endsType = true) :
    SpacedType (kinds ++ more) (text ++ other) := by
  simpa using first.append_spaced second isNext gap_mark ends

theorem concat_mark (first : SpacedType kinds text) (mark : Mark)
    (ends : (TokenKind.mark mark).endsType = true) :
    SpacedType (kinds ++ [.mark mark]) (text ++ mark.text.toList) :=
  first.append_marks (.single _) rfl ⟨_, rfl, ends⟩

theorem angled (first : SpacedType kinds text) (second : SpacedType more other) :
    SpacedType (kinds ++ .mark .less :: (more ++ [.mark .greater]))
      (text ++ '<' :: (other ++ ['>'])) := by
  simpa [Mark.text] using first.append_mark .less rfl nofun (second.concat_mark .greater rfl)

theorem parenthesized (type : SpacedType kinds text) :
    SpacedType (.mark .leftParen :: (kinds ++ [.mark .rightParen])) ('(' :: (text ++ [')'])) := by
  have noGap (next : TokenKind) : (TokenKind.mark .leftParen).gap next = [] :=
    gap_behind_mark rfl (by decide) next
  obtain ⟨spaced, ends⟩ := (type.concat_mark .rightParen rfl).behind_mark .leftParen fun next _ =>
    noGap next
  exact ⟨by simpa [Mark.text] using spaced, ⟨_, rfl, rfl⟩, ends⟩

/-- A word behind a type. -/
theorem spaced_word (type : SpacedType kinds text) (name : String) :
    SpacedType (kinds ++ [.ident name]) (text ++ ' ' :: name.toList) := by
  have blank (last : TokenKind) (ends : last.endsType = true) : last.gap (.ident name) = [' '] := by
    simp [gap, ends, isIdent, ident?]
  simpa using type.append_spaced (word name).toSpaced rfl blank ⟨_, rfl, rfl⟩

end SpacedType

/-- Between marks there is no blank unless a parenthesis opens behind a comma. -/
theorem spaced_marks {signs : List Mark}
    (plain : ∀ sign ∈ signs, sign ≠ .leftParen ∧ sign ≠ .greater) :
    Spaced (signs.map .mark) (signs.flatMap fun sign => sign.text.toList) := by
  induction signs with
  | nil => exact ⟨.nil, rfl⟩
  | cons first others ih =>
      obtain ⟨-, plainOthers⟩ := List.forall_mem_cons.mp plain
      cases others with
      | nil => simpa [letters] using Spaced.single (.mark first)
      | cons next others =>
          obtain ⟨noParen, noAngle⟩ := (List.forall_mem_cons.mp plainOthers).1
          have fits : Fits (.mark first) (.mark next) := fun same =>
            absurd (TokenKind.mark.inj same) noAngle
          have noGap : (TokenKind.mark first).gap (.mark next) = [] := by
            cases next <;> simp_all [gap, isIdent, ident?, beginsType]
          have behind := (Spaced.single (.mark first)).append (ih plainOthers) (.mark first)
            (.mark next) rfl rfl fits
          rw [noGap, List.append_nil] at behind
          exact behind

/-- The dimensions of an array behind a type. -/
theorem SpacedType.append_arraySuffix (type : SpacedType kinds text) (commas : Nat) :
    SpacedType (kinds ++ .mark .leftBracket ::
        (List.replicate commas (.mark .comma) ++ [.mark .rightBracket]))
      (text ++ (TypeExpr.arraySuffix (1 + commas)).toList) := by
  have marks : Spaced (.mark .leftBracket ::
      (List.replicate commas (.mark .comma) ++ [.mark .rightBracket]))
        (TypeExpr.arraySuffix (1 + commas)).toList := by
    have plain : ∀ sign ∈ Mark.leftBracket :: (List.replicate commas .comma ++ [.rightBracket]),
        sign ≠ .leftParen ∧ sign ≠ .greater := by
      simp +contextual [List.mem_replicate, or_imp]
    have spaced := spaced_marks plain
    simpa [Mark.text, TypeExpr.arraySuffix, List.flatMap_replicate] using spaced
  have isLast : (.mark .leftBracket :: (List.replicate commas (TokenKind.mark .comma) ++
      [.mark .rightBracket])).getLast? = some (.mark .rightBracket) := by
    rw [← List.cons_append, List.getLast?_concat]
  exact type.append_marks marks rfl ⟨_, isLast, rfl⟩

end Spacing

section Spelling

/-- The last token is a comma or two colons. -/
def LeavesOpen (kinds : List TokenKind) : Prop :=
  ∃ kind, kinds.getLast? = some kind ∧ (kind = .mark .comma ∨ kind = .mark .doubleColon)

/-- How the tokens of a piece are spaced.  What is no type leaves something open. -/
def TypePiece.IsSpaced (kinds : List TokenKind) : TypePiece → Prop
  | .noElements => True
  | .noType => kinds = [] ∨ LeavesOpen kinds
  | .arguments types =>
    SpacedType kinds (TypeExpr.textOfList types).toList ∨ LeavesOpen kinds
  | piece => SpacedType kinds piece.text.toList

variable {kinds : List TokenKind} {piece : TypePiece}

/-- No parenthesis is closed that has not been opened. -/
private theorem Spells.count_le (spells : Spells kinds piece) :
    kinds.count (.mark .rightParen) ≤ kinds.count (.mark .leftParen) := by
  induction spells with
  | keyword _ | plainPart _ | nothing | qualifierOnly _ => simp
  | named _ _ ih | lastPart _ ih | lastArgument _ ih | lastElement _ ih | unclosedElement _ ih
  | noElement _ ih => exact ih
  | element name _ ih => cases name <;> simpa [List.count_append] using ih
  | _ => simp_all [List.count_append, List.count_replicate] <;> omega

/-- Parentheses that match are opened as often as they are closed. -/
private theorem Bracketed.count_eq (bracketed : Bracketed kinds) :
    kinds.count (.mark .leftParen) = kinds.count (.mark .rightParen) := by
  induction bracketed with
  | nil => rfl
  | @inner kind others isInner _ ih =>
      have other (mark : Mark) (noInner : TokenKind.isInner (.mark mark) = false) :
          kind ≠ .mark mark := by
        rintro rfl
        rw [noInner] at isInner
        cases isInner
      rw [List.count_cons_of_ne (other _ rfl), List.count_cons_of_ne (other _ rfl), ih]
  | group pair _ _ ihWithin ihBehind =>
      simp only [Mark.pairs, List.mem_cons, Prod.mk.injEq, List.not_mem_nil, or_false] at pair
      obtain ⟨rfl, rfl⟩ | ⟨rfl, rfl⟩ | ⟨rfl, rfl⟩ := pair <;>
        (simp [List.count_append, ihWithin, ihBehind]; try omega)

/-- What is left open stays open behind other tokens. -/
private theorem LeavesOpen.behind (leaves : LeavesOpen kinds) (front : List TokenKind) :
    LeavesOpen (front ++ kinds) := by
  obtain ⟨kind, isLast, isOpen⟩ := leaves
  refine ⟨kind, ?_, isOpen⟩
  rw [List.getLast?_append, isLast]
  rfl

/-- No closing angle bracket stands behind what is left open. -/
private theorem LeavesOpen.misfits (leaves : LeavesOpen kinds)
    (fits : (kinds ++ [TokenKind.mark .greater]).IsChain Fits) : False := by
  obtain ⟨kind, isLast, isOpen⟩ := leaves
  have apart := (List.isChain_append.mp fits).2.2 kind isLast _ rfl rfl
  rcases isOpen with rfl | rfl
  · exact apart.1 rfl
  · exact apart.2 rfl

/-- Behind a comma a type is set apart, or what is left open stays so. -/
private theorem append_comma {more : List TokenKind} {text other : List Char}
    (first : SpacedType kinds text) (rest : SpacedType more other ∨ LeavesOpen more) :
    SpacedType (kinds ++ .mark .comma :: more) (text ++ ',' :: ' ' :: other) ∨
      LeavesOpen (kinds ++ .mark .comma :: more) := by
  refine rest.imp first.append_comma fun leaves => ?_
  have behind := leaves.behind (kinds ++ [.mark .comma])
  rwa [List.append_assoc, List.singleton_append] at behind

/-- Parentheses match in both of two pieces if they match in the whole. -/
private theorem Spells.matched_append {more : List TokenKind} {other : TypePiece} {mark : Mark}
    (first : Spells kinds piece) (rest : Spells more other)
    (plain : mark ≠ .leftParen ∧ mark ≠ .rightParen)
    (matched : (kinds ++ .mark mark :: more).count (.mark .leftParen) =
      (kinds ++ .mark mark :: more).count (.mark .rightParen)) :
    kinds.count (.mark .leftParen) = kinds.count (.mark .rightParen) ∧
      more.count (.mark .leftParen) = more.count (.mark .rightParen) := by
  have noOpening : TokenKind.mark mark ≠ .mark .leftParen := fun same =>
    plain.1 (TokenKind.mark.inj same)
  have noClosing : TokenKind.mark mark ≠ .mark .rightParen := fun same =>
    plain.2 (TokenKind.mark.inj same)
  have := first.count_le
  have := rest.count_le
  rw [List.count_append, List.count_append, List.count_cons_of_ne noOpening,
    List.count_cons_of_ne noClosing] at matched
  omega

/-- Where parentheses match and a closing angle bracket stands behind types only, the tokens of
a type are spaced like its canonical spelling. -/
private theorem Spells.isSpaced (spells : Spells kinds piece)
    (matched : kinds.count (.mark .leftParen) = kinds.count (.mark .rightParen))
    (fits : kinds.IsChain Fits) : piece.IsSpaced kinds := by
  induction spells with
  | keyword known | plainPart name => exact .word _
  | named isName parts ih =>
      show SpacedType _ (TypeExpr.text _).toList
      rw [TypeExpr.text]
      exact ih matched fits
  | @qualified qualifier segments kinds isName parts ih =>
      have inner : SpacedType kinds (NameSegment.textOfList segments).toList :=
        ih (by simpa using matched) fits.tail.tail
      show SpacedType _ (TypeExpr.text _).toList
      simpa [TypeExpr.text] using (SpacedType.word qualifier).append_colons inner
  | @tuple elements kinds inner ih =>
      have inner : SpacedType kinds (TupleElement.textOfList elements).toList :=
        ih (by simpa [List.count_append] using matched) fits.tail.left_of_append
      show SpacedType _ (TypeExpr.text _).toList
      simpa [TypeExpr.text] using inner.parenthesized
  | @nullable type kinds inner ih =>
      have inner : SpacedType kinds type.text.toList :=
        ih (by simpa [List.count_append] using matched) fits.left_of_append
      show SpacedType _ (TypeExpr.text _).toList
      simpa [TypeExpr.text, Mark.text] using inner.concat_mark .question rfl
  | @pointer type kinds inner ih =>
      have inner : SpacedType kinds type.text.toList :=
        ih (by simpa [List.count_append] using matched) fits.left_of_append
      show SpacedType _ (TypeExpr.text _).toList
      simpa [TypeExpr.text, Mark.text] using inner.concat_mark .star rfl
  | @array type kinds commas inner ih =>
      have inner : SpacedType kinds type.text.toList :=
        ih (by simpa [List.count_append, List.count_replicate] using matched) fits.left_of_append
      show SpacedType _ (TypeExpr.text _).toList
      rw [TypeExpr.text, String.toList_append]
      exact inner.append_arraySuffix commas
  | @genericPart name arguments kinds inner ih =>
      have spaced : SpacedType kinds (TypeExpr.textOfList arguments).toList :=
        (ih (by simpa [List.count_append] using matched)
          fits.tail.tail.left_of_append).resolve_right fun leaves => leaves.misfits fits.tail.tail
      show SpacedType _ (NameSegment.text _).toList
      obtain ⟨first, others, rfl⟩ := List.exists_cons_of_ne_nil inner.arguments_ne_nil
      simpa [NameSegment.text] using (SpacedType.word name).angled spaced
  | lastPart last ih =>
      show SpacedType _ (NameSegment.textOfList _).toList
      rw [NameSegment.textOfList]
      exact ih matched fits
  | @moreParts segment segments kinds more first rest ihFirst ihRest =>
      obtain ⟨matchedFirst, matchedRest⟩ := first.matched_append rest (by decide) matched
      have before : SpacedType kinds segment.text.toList := ihFirst matchedFirst fits.left_of_append
      have behind : SpacedType more (NameSegment.textOfList segments).toList :=
        ihRest matchedRest fits.right_of_append.tail
      show SpacedType _ (NameSegment.textOfList _).toList
      cases segments with
      | nil => cases rest
      | cons next segments => simpa [NameSegment.textOfList] using before.append_dot behind
  | lastArgument last ih =>
      refine .inl ?_
      rw [TypeExpr.textOfList]
      exact ih matched fits
  | @moreArguments type types kinds more first rest ihFirst ihRest =>
      obtain ⟨matchedFirst, matchedRest⟩ := first.matched_append rest (by decide) matched
      have before : SpacedType kinds type.text.toList := ihFirst matchedFirst fits.left_of_append
      have both := append_comma before (ihRest matchedRest fits.right_of_append.tail)
      obtain ⟨next, types, rfl⟩ := List.exists_cons_of_ne_nil rest.arguments_ne_nil
      show SpacedType _ (TypeExpr.textOfList _).toList ∨ _
      simpa [TypeExpr.textOfList] using both
  | @lastArgumentAndNoType type kinds more first rest ihFirst ihRest =>
      obtain ⟨-, matchedRest⟩ := first.matched_append rest (by decide) matched
      refine .inr ?_
      rcases ihRest matchedRest fits.right_of_append.tail with rfl | leaves
      · exact ⟨.mark .comma, List.getLast?_concat, .inl rfl⟩
      · have behind := leaves.behind (kinds ++ [.mark .comma])
        rwa [List.append_assoc, List.singleton_append] at behind
  | @element type kinds name inner ih =>
      have spaced : SpacedType kinds type.text.toList :=
        ih (by cases name <;> simpa [List.count_append] using matched) fits.left_of_append
      show SpacedType _ (TupleElement.text _).toList
      cases name with
      | none => simpa [TupleElement.text] using spaced
      | some name => simpa [TupleElement.text] using spaced.spaced_word name
  | lastElement last ih =>
      show SpacedType _ (TupleElement.textOfList _).toList
      rw [TupleElement.textOfList]
      exact ih matched fits
  | @moreElements element elements kinds more first rest ihFirst ihRest =>
      obtain ⟨matchedFirst, matchedRest⟩ := first.matched_append rest (by decide) matched
      have before : SpacedType kinds element.text.toList := ihFirst matchedFirst fits.left_of_append
      have behind : SpacedType more (TupleElement.textOfList elements).toList :=
        ihRest matchedRest fits.right_of_append.tail
      show SpacedType _ (TupleElement.textOfList _).toList
      cases elements with
      | nil => cases rest
      | cons next elements => simpa [TupleElement.textOfList] using before.append_comma behind
  | nothing => exact .inl rfl
  | qualifierOnly isName => exact .inr ⟨_, rfl, .inr rfl⟩
  | @openTuple kinds inner ih =>
      -- the parenthesis in front is not closed
      have := inner.count_le
      simp at matched
      omega
  | @openArray type kinds commas inner ih =>
      refine .inr ⟨.mark .comma, ?_, .inl rfl⟩
      rw [List.replicate_succ', ← List.cons_append, ← List.append_assoc, List.getLast?_concat]
  | unclosedElement last ih | noElement last ih | moreNoElements first rest ihFirst ihRest =>
      exact trivial

end Spelling

section Texts

/-- A text that is put together like a type: it is code, and spaced like the canonical spelling of
a type. -/
def IsTypeCode (text : String) : Prop :=
  ∃ kinds, Bracketed kinds ∧ WritesNeatly text.toList kinds ∧ SpacedType kinds text.toList

/-- A text that may stand behind a type: none, or marks. -/
def IsTypeSuffix (text : String) : Prop :=
  text = "" ∨ ∃ kinds, Bracketed kinds ∧ WritesNeatly text.toList kinds ∧
    (∀ c ∈ text.toList.head?, Lexeme.continuesWord c = false) ∧
    ∀ {others : List TokenKind} {front : List Char}, SpacedType others front →
      SpacedType (others ++ kinds) (front ++ text.toList)

namespace IsTypeCode

variable {text more : String}

theorem of_toList {chars : List Char} {kinds : List TokenKind} (isText : text.toList = chars)
    (bracketed : Bracketed kinds) (written : WritesNeatly chars kinds)
    (spaced : SpacedType kinds chars) : IsTypeCode text :=
  ⟨kinds, bracketed, isText ▸ written, isText ▸ spaced⟩

/-- What is put together like a type is code. -/
theorem isCode (isType : IsTypeCode text) : IsCode text := by
  obtain ⟨kinds, bracketed, written, -⟩ := isType
  exact ⟨kinds, bracketed, written⟩

theorem word {word : String} (isWord : Lexeme.IsWord word.toList) : IsTypeCode word :=
  ⟨_, .inner rfl .nil, .word isWord, .word word⟩

theorem append_dot (first : IsTypeCode text) (second : IsTypeCode more) :
    IsTypeCode (text ++ "." ++ more) := by
  obtain ⟨kinds, bracketed, written, spaced⟩ := first
  obtain ⟨others, bracketedMore, writtenMore, spacedMore⟩ := second
  have isText : (text ++ "." ++ more).toList = text.toList ++ '.' :: more.toList := by simp
  exact of_toList isText (bracketed.append (.inner rfl bracketedMore))
    (written.append_mark rfl (by decide) writtenMore) (spaced.append_dot spacedMore)

theorem append_colons (first : IsTypeCode text) (second : IsTypeCode more) :
    IsTypeCode (text ++ "::" ++ more) := by
  obtain ⟨kinds, bracketed, written, spaced⟩ := first
  obtain ⟨others, bracketedMore, writtenMore, spacedMore⟩ := second
  have isText : (text ++ "::" ++ more).toList = text.toList ++ ':' :: ':' :: more.toList := by simp
  exact of_toList isText (bracketed.append (.inner rfl bracketedMore))
    (written.append_colons writtenMore) (spaced.append_colons spacedMore)

theorem append_comma (first : IsTypeCode text) (second : IsTypeCode more) :
    IsTypeCode (text ++ ", " ++ more) := by
  obtain ⟨kinds, bracketed, written, spaced⟩ := first
  obtain ⟨others, bracketedMore, writtenMore, spacedMore⟩ := second
  have isText : (text ++ ", " ++ more).toList = text.toList ++ ',' :: ' ' :: more.toList := by simp
  exact of_toList isText (bracketed.append (.inner rfl bracketedMore))
    (written.append_comma writtenMore) (spaced.append_comma spacedMore)

/-- A type with a name behind it. -/
theorem spaced_word (isType : IsTypeCode text) {name : String}
    (isWord : Lexeme.IsWord name.toList) :
    IsTypeCode (text ++ " " ++ name) := by
  obtain ⟨kinds, bracketed, written, spaced⟩ := isType
  have isText : (text ++ " " ++ name).toList = text.toList ++ ' ' :: name.toList := by simp
  exact of_toList isText (bracketed.append (.inner rfl .nil)) (written.spaced (.word isWord))
    (spaced.spaced_word name)

theorem angled (first : IsTypeCode text) (second : IsTypeCode more) :
    IsTypeCode (text ++ "<" ++ more ++ ">") := by
  obtain ⟨kinds, bracketed, written, spaced⟩ := first
  obtain ⟨others, bracketedMore, writtenMore, spacedMore⟩ := second
  have isText : (text ++ "<" ++ more ++ ">").toList =
      text.toList ++ '<' :: (more.toList ++ ['>']) := by simp
  exact of_toList isText
    (bracketed.append (bracketedMore.enclosed (by decide : (Mark.less, Mark.greater) ∈ _)))
    (written.append_mark rfl (by decide) (writtenMore.concat_mark rfl (by decide)))
    (spaced.angled spacedMore)

theorem parenthesized (isType : IsTypeCode text) : IsTypeCode ("(" ++ text ++ ")") := by
  obtain ⟨kinds, bracketed, written, spaced⟩ := isType
  have isText : ("(" ++ text ++ ")").toList = '(' :: (text.toList ++ [')']) := by simp
  exact of_toList isText
    (bracketed.enclosed (by decide : (Mark.leftParen, Mark.rightParen) ∈ _))
    ((written.concat_mark rfl (by decide)).behind_mark rfl (by decide)) spaced.parenthesized

theorem append_suffix (isType : IsTypeCode text) (suffix : IsTypeSuffix more) :
    IsTypeCode (text ++ more) := by
  rcases suffix with rfl | ⟨others, bracketedMore, writtenMore, apart, behind⟩
  · rwa [String.append_empty]
  · obtain ⟨kinds, bracketed, written, spaced⟩ := isType
    exact of_toList String.toList_append (bracketed.append bracketedMore)
      (written.append writtenMore apart) (behind spaced)

/-- Parts with dots between them. -/
theorem intercalate_dot {parts : List String} (some : parts ≠ [])
    (areTypes : ∀ part ∈ parts, IsTypeCode part) : IsTypeCode (".".intercalate parts) := by
  induction parts with
  | nil => exact absurd rfl some
  | cons first others ih =>
      obtain ⟨isFirst, areOthers⟩ := List.forall_mem_cons.mp areTypes
      cases others with
      | nil => rwa [String.intercalate_singleton]
      | cons second others =>
          rw [String.intercalate_cons_cons]
          exact isFirst.append_dot (ih (List.cons_ne_nil _ _) areOthers)

end IsTypeCode

namespace IsTypeSuffix

variable {text more : String}

theorem append (first : IsTypeSuffix text) (second : IsTypeSuffix more) :
    IsTypeSuffix (text ++ more) := by
  rcases first with rfl | ⟨kinds, bracketed, written, apart, behind⟩
  · rwa [String.empty_append]
  rcases second with rfl | ⟨others, bracketedMore, writtenMore, apartMore, behindMore⟩
  · rw [String.append_empty]
    exact .inr ⟨kinds, bracketed, written, apart, behind⟩
  rw [IsTypeSuffix, String.toList_append]
  refine .inr ⟨_, bracketed.append bracketedMore, written.append writtenMore apartMore, ?_, ?_⟩
  · obtain ⟨d, rest, isText, -⟩ := written.neat.begins
    rw [isText] at apart ⊢
    exact apart
  · intro front words spaced
    simpa only [List.append_assoc] using behindMore (behind spaced)

/-- A mark that ends a type is a suffix. -/
theorem mark {c : Char} {sign : Mark} (alone : Lexeme.single? c = some (.mark sign))
    (noPair : c ≠ ':' ∧ c ≠ '=') (isInner : TokenKind.isInner (.mark sign) = true)
    (ends : (TokenKind.mark sign).endsType = true) (isText : sign.text = String.singleton c) :
    IsTypeSuffix (String.singleton c) := by
  refine .inr ⟨[.mark sign], .inner isInner .nil, ?_, ?_, ?_⟩
  · simpa using WritesNeatly.mark alone noPair
  · simpa using Lexeme.notWord_of_single alone
  · intro front words spaced
    exact isText ▸ spaced.concat_mark sign ends

theorem array {rank : Nat} (dimension : 1 ≤ rank) : IsTypeSuffix (TypeExpr.arraySuffix rank) := by
  obtain ⟨commas, rfl⟩ := Nat.exists_eq_add_of_le dimension
  have commaList : Bracketed (List.replicate commas (.mark .comma)) :=
    .of_inner fun kind member => by rw [List.eq_of_mem_replicate member]; rfl
  refine .inr ⟨_, commaList.enclosed (by decide : (Mark.leftBracket, Mark.rightBracket) ∈ _),
    writesNeatly_arraySuffix commas, fun c isHead => ?_,
    fun spaced => spaced.append_arraySuffix commas⟩
  obtain rfl : '[' = c := by simpa [TypeExpr.arraySuffix] using isHead
  exact Lexeme.notWord_of_single rfl

end IsTypeSuffix

/-- A text that is put together like a type and is read as a type is the canonical spelling of
that type. -/
theorem IsTypeCode.spelled {text : String} (isType : IsTypeCode text) {type : TypeExpr}
    (parsed : TypeExpr.parse text = .ok type) :
    type.text = text ∧ ∃ kinds, Bracketed kinds ∧ WritesNeatly text.toList kinds ∧
      Spells kinds (.type type.unplaced) := by
  obtain ⟨kinds, bracketed, written, spaced⟩ := isType
  have spells : Spells kinds (.type type.unplaced) := by
    obtain ⟨later, isEnd, run⟩ := TypeExpr.exists_run_of_parse parsed
    obtain ⟨tokens, isRest, spells⟩ := Parser.type_spelled run
    rw [isEnd, List.append_nil] at isRest
    rw [← written.writes.map_kind_tokens "<type>", show Token.tokens _ = tokens from isRest]
    exact spells
  have canonical : SpacedType kinds type.unplaced.text.toList :=
    spells.isSpaced bracketed.count_eq spaced.fits
  refine ⟨?_, kinds, bracketed, written, spells⟩
  rw [← type.text_unplaced]
  exact String.toList_injective (canonical.isText.symm.trans spaced.isText)

end Texts

end ErrorAccessors
