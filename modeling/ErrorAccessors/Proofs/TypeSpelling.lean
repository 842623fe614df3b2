/-
# How types are spelled

The grammar of types as a relation between token kinds and what they spell, up
to places.  It covers what the reader of types accepts and nothing else: besides
the types themselves their parts between brackets, and the stretches that look
like a further type argument but stop in front of the closing bracket, since
the reader passes over such a stretch without a word.

Reading is proved to agree with the grammar in both directions.  In this
direction a spelling is read in front of whatever cannot continue it, wherever
the tokens stand and whatever was recorded before.
-/

import ErrorAccessors.Proofs.TypeRounds
import ErrorAccessors.Proofs.Unplaced

namespace ErrorAccessors

/-- What a stretch of tokens may spell. -/
inductive TypePiece where
  | type (type : TypeExpr)
  /-- One part of a dotted name. -/
  | part (segment : NameSegment)
  /-- The parts of a dotted name. -/
  | segments (segments : List NameSegment)
  /-- Type arguments, without the angle brackets. -/
  | arguments (arguments : List TypeExpr)
  /-- One element of a tuple. -/
  | element (element : TupleElement)
  /-- The elements of a tuple, without the parentheses. -/
  | elements (elements : List TupleElement)
  /-- No type, in front of a closing angle bracket. -/
  | noType
  /-- No rest of a tuple behind its parenthesis, in front of a closing angle
  bracket. -/
  | noElements

/-- Which token kinds spell what. -/
inductive Spells : List TokenKind → TypePiece → Prop
  | keyword {name : String} (known : name ∈ TypeExpr.keywords) :
      Spells [.ident name] (.type (.predefined name .nowhere))
  | named {name : String} {arguments : List TypeExpr} {segments : List NameSegment}
      {kinds : List TokenKind} (isName : name ∉ TypeExpr.keywords)
      (parts : Spells kinds (.segments (⟨name, arguments⟩ :: segments))) :
      Spells kinds (.type (.named none (⟨name, arguments⟩ :: segments) .nowhere))
  | qualified {qualifier : String} {segments : List NameSegment} {kinds : List TokenKind}
      (isName : qualifier ∉ TypeExpr.keywords)
      (parts : Spells kinds (.segments segments)) :
      Spells (.ident qualifier :: .mark .doubleColon :: kinds)
        (.type (.named (some qualifier) segments .nowhere))
  | tuple {elements : List TupleElement} {kinds : List TokenKind}
      (inner : Spells kinds (.elements elements)) :
      Spells (.mark .leftParen :: (kinds ++ [.mark .rightParen]))
        (.type (.tuple elements .nowhere))
  | nullable {type : TypeExpr} {kinds : List TokenKind} (inner : Spells kinds (.type type)) :
      Spells (kinds ++ [.mark .question]) (.type (.nullable type .nowhere))
  | pointer {type : TypeExpr} {kinds : List TokenKind} (inner : Spells kinds (.type type)) :
      Spells (kinds ++ [.mark .star]) (.type (.pointer type .nowhere))
  | array {type : TypeExpr} {kinds : List TokenKind} (commas : Nat)
      (inner : Spells kinds (.type type)) :
      Spells (kinds ++ .mark .leftBracket ::
          (List.replicate commas (.mark .comma) ++ [.mark .rightBracket]))
        (.type (.array type (1 + commas) .nowhere))
  | plainPart (name : String) : Spells [.ident name] (.part ⟨name, []⟩)
  | genericPart (name : String) {arguments : List TypeExpr} {kinds : List TokenKind}
      (inner : Spells kinds (.arguments arguments)) :
      Spells (.ident name :: .mark .less :: (kinds ++ [.mark .greater]))
        (.part ⟨name, arguments⟩)
  | lastPart {segment : NameSegment} {kinds : List TokenKind}
      (last : Spells kinds (.part segment)) : Spells kinds (.segments [segment])
  | moreParts {segment : NameSegment} {segments : List NameSegment}
      {kinds more : List TokenKind} (first : Spells kinds (.part segment))
      (rest : Spells more (.segments segments)) :
      Spells (kinds ++ .mark .dot :: more) (.segments (segment :: segments))
  | lastArgument {type : TypeExpr} {kinds : List TokenKind} (last : Spells kinds (.type type)) :
      Spells kinds (.arguments [type])
  | moreArguments {type : TypeExpr} {types : List TypeExpr} {kinds more : List TokenKind}
      (first : Spells kinds (.type type)) (rest : Spells more (.arguments types)) :
      Spells (kinds ++ .mark .comma :: more) (.arguments (type :: types))
  | lastArgumentAndNoType {type : TypeExpr} {kinds more : List TokenKind}
      (first : Spells kinds (.type type)) (rest : Spells more .noType) :
      Spells (kinds ++ .mark .comma :: more) (.arguments [type])
  | element {type : TypeExpr} {kinds : List TokenKind} (name : Option String)
      (inner : Spells kinds (.type type)) :
      Spells (kinds ++ name.toList.map .ident) (.element ⟨type, name⟩)
  | lastElement {element : TupleElement} {kinds : List TokenKind}
      (last : Spells kinds (.element element)) : Spells kinds (.elements [element])
  | moreElements {element : TupleElement} {elements : List TupleElement}
      {kinds more : List TokenKind} (first : Spells kinds (.element element))
      (rest : Spells more (.elements elements)) :
      Spells (kinds ++ .mark .comma :: more) (.elements (element :: elements))
  | nothing : Spells [] .noType
  | qualifierOnly {qualifier : String}
      (isName : qualifier ∉ TypeExpr.keywords) :
      Spells [.ident qualifier, .mark .doubleColon] .noType
  | openTuple {kinds : List TokenKind} (inner : Spells kinds .noElements) :
      Spells (.mark .leftParen :: kinds) .noType
  | openArray {type : TypeExpr} {kinds : List TokenKind} (commas : Nat)
      (inner : Spells kinds (.type type)) :
      Spells (kinds ++ .mark .leftBracket :: List.replicate (commas + 1) (.mark .comma)) .noType
  | unclosedElement {element : TupleElement} {kinds : List TokenKind}
      (last : Spells kinds (.element element)) : Spells kinds .noElements
  | noElement {kinds : List TokenKind} (last : Spells kinds .noType) :
      Spells kinds .noElements
  | moreNoElements {element : TupleElement} {kinds more : List TokenKind}
      (first : Spells kinds (.element element)) (rest : Spells more .noElements) :
      Spells (kinds ++ .mark .comma :: more) .noElements

section Beginnings

/-- A type, a part of a name or a whole name begins with a token, and no opening
parenthesis stands behind a word that it begins with. -/
def BeginsWell (kinds : List TokenKind) : Prop :=
  (∃ name more, kinds = .ident name :: more ∧ more.head? ≠ some (.mark .leftParen)) ∨
    ∃ more, kinds = .mark .leftParen :: more

theorem BeginsWell.append {kinds more : List TokenKind} (begins : BeginsWell kinds)
    (behind : more.head? ≠ some (.mark .leftParen)) : BeginsWell (kinds ++ more) := by
  rcases begins with ⟨name, rest, rfl, noParen⟩ | ⟨rest, rfl⟩
  · refine .inl ⟨name, rest ++ more, rfl, ?_⟩
    cases rest with
    | nil => exact behind
    | cons kind rest => exact noParen
  · exact .inr ⟨rest ++ more, rfl⟩

/-- What the pieces that begin a type begin with. -/
theorem Spells.beginsWell {kinds : List TokenKind} {piece : TypePiece}
    (spelled : Spells kinds piece) :
    match piece with
    | .type _ | .part _ | .segments _ => BeginsWell kinds
    | _ => True := by
  induction spelled with
  | keyword known => exact .inl ⟨_, [], rfl, by simp⟩
  | named isName parts ih => exact ih
  | qualified isName parts ih => exact .inl ⟨_, _, rfl, by simp⟩
  | tuple inner ih => exact .inr ⟨_, rfl⟩
  | nullable inner ih => exact ih.append (by simp)
  | pointer inner ih => exact ih.append (by simp)
  | array commas inner ih => exact ih.append (by simp)
  | plainPart name => exact .inl ⟨_, [], rfl, by simp⟩
  | genericPart name inner ih => exact .inl ⟨_, _, rfl, by simp⟩
  | lastPart last ih => exact ih
  | moreParts first rest ihFirst ihRest => exact ihFirst.append (by simp)
  | _ => trivial

end Beginnings

namespace Cursor

/-- A dotted name is complete where none of the marks comes next that continue
or qualify one. -/
structure EndsName (cursor : Cursor) : Prop where
  less : cursor.peek? 0 ≠ some (.mark .less)
  dot : cursor.peek? 0 ≠ some (.mark .dot)
  doubleColon : cursor.peek? 0 ≠ some (.mark .doubleColon)

/-- A type is complete where a name is and no suffix comes next. -/
structure EndsType (cursor : Cursor) : Prop extends EndsName cursor where
  question : cursor.peek? 0 ≠ some (.mark .question)
  star : cursor.peek? 0 ≠ some (.mark .star)
  leftBracket : cursor.peek? 0 ≠ some (.mark .leftBracket)

/-- A type is complete in front of a comma, of a closing bracket and of a name. -/
theorem EndsType.of_kind {cursor : Cursor} {kind : TokenKind} (next : cursor.peek? 0 = some kind)
    (ends : kind = .mark .comma ∨ kind = .mark .greater ∨ kind = .mark .rightParen ∨
      kind.isIdent = true) : EndsType cursor := by
  have differs {mark : Mark} (continues : mark ∈ [Mark.less, .dot, .doubleColon, .question, .star,
      .leftBracket]) : cursor.peek? 0 ≠ some (.mark mark) := by
    intro here
    rw [next, Option.some.injEq] at here
    rw [here] at ends
    simp only [TokenKind.mark.injEq, TokenKind.isIdent, TokenKind.ident?, Option.isSome_none,
      Bool.false_eq_true, or_false] at ends
    rcases ends with rfl | rfl | rfl <;> simp at continues
  exact ⟨⟨differs (by simp), differs (by simp), differs (by simp)⟩, differs (by simp),
    differs (by simp), differs (by simp)⟩

end Cursor

end ErrorAccessors
