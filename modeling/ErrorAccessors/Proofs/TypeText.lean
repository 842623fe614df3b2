/-
# The text of a type is read back

The canonical spelling of a type is text, and reading it gives the type again,
up to places.  The words of the type have to be words of the language, which
they are if the type was read from a text.

The spelling of a type is put together from words and marks, and so is what it
writes.  It is also neat, so the layout of generated code keeps it.
-/

import ErrorAccessors.Parser.Declaration
import ErrorAccessors.Proofs.NeatText
import ErrorAccessors.Proofs.TypeReading

namespace ErrorAccessors

mutual

/-- The spelling of a type does not tell where it was written. -/
theorem TypeExpr.text_unplaced : ∀ type : TypeExpr, type.unplaced.text = type.text
  | .predefined keyword span => by rw [TypeExpr.unplaced, TypeExpr.text, TypeExpr.text]
  | .named none segments span => by
      rw [TypeExpr.unplaced, TypeExpr.text, TypeExpr.text, NameSegment.textOfList_unplaced]
  | .named (some qualifier) segments span => by
      rw [TypeExpr.unplaced, TypeExpr.text, TypeExpr.text, NameSegment.textOfList_unplaced]
  | .nullable inner span => by
      rw [TypeExpr.unplaced, TypeExpr.text, TypeExpr.text, TypeExpr.text_unplaced]
  | .array element rank span => by
      rw [TypeExpr.unplaced, TypeExpr.text, TypeExpr.text, TypeExpr.text_unplaced]
  | .pointer inner span => by
      rw [TypeExpr.unplaced, TypeExpr.text, TypeExpr.text, TypeExpr.text_unplaced]
  | .tuple elements span => by
      rw [TypeExpr.unplaced, TypeExpr.text, TypeExpr.text, TupleElement.textOfList_unplaced]

private theorem TypeExpr.textOfList_unplaced : ∀ types : List TypeExpr,
    TypeExpr.textOfList (TypeExpr.unplacedList types) = TypeExpr.textOfList types
  | [] => by rw [TypeExpr.unplacedList]
  | [type] => by
      rw [TypeExpr.unplacedList, TypeExpr.unplacedList, TypeExpr.textOfList, TypeExpr.textOfList,
        TypeExpr.text_unplaced]
  | type :: next :: rest => by
      have later := TypeExpr.textOfList_unplaced (next :: rest)
      rw [TypeExpr.unplacedList] at later
      rw [TypeExpr.unplacedList, TypeExpr.unplacedList, TypeExpr.textOfList, TypeExpr.textOfList,
        TypeExpr.text_unplaced, later]

private theorem NameSegment.text_unplaced : ∀ segment : NameSegment,
    NameSegment.text ⟨segment.name, TypeExpr.unplacedList segment.arguments⟩ = segment.text
  | ⟨name, []⟩ => by
      simp only [TypeExpr.unplacedList]
  | ⟨name, first :: rest⟩ => by
      have arguments := TypeExpr.textOfList_unplaced (first :: rest)
      simp only [TypeExpr.unplacedList] at arguments ⊢
      rw [NameSegment.text, NameSegment.text, arguments]

private theorem NameSegment.textOfList_unplaced : ∀ segments : List NameSegment,
    NameSegment.textOfList (NameSegment.unplacedList segments) = NameSegment.textOfList segments
  | [] => by rw [NameSegment.unplacedList]
  | [⟨name, arguments⟩] => by
      have first := NameSegment.text_unplaced ⟨name, arguments⟩
      rw [NameSegment.unplacedList, NameSegment.unplacedList, NameSegment.textOfList,
        NameSegment.textOfList, first]
  | ⟨name, arguments⟩ :: ⟨next, others⟩ :: rest => by
      have first := NameSegment.text_unplaced ⟨name, arguments⟩
      have later := NameSegment.textOfList_unplaced (⟨next, others⟩ :: rest)
      rw [NameSegment.unplacedList] at later
      rw [NameSegment.unplacedList, NameSegment.unplacedList, NameSegment.textOfList,
        NameSegment.textOfList, first, later]

private theorem TupleElement.text_unplaced : ∀ element : TupleElement,
    TupleElement.text ⟨element.type.unplaced, element.name⟩ = element.text
  | ⟨type, none⟩ => by rw [TupleElement.text, TupleElement.text, TypeExpr.text_unplaced]
  | ⟨type, some name⟩ => by rw [TupleElement.text, TupleElement.text, TypeExpr.text_unplaced]

private theorem TupleElement.textOfList_unplaced : ∀ elements : List TupleElement,
    TupleElement.textOfList (TupleElement.unplacedList elements) =
      TupleElement.textOfList elements
  | [] => by rw [TupleElement.unplacedList]
  | [⟨type, name⟩] => by
      have first := TupleElement.text_unplaced ⟨type, name⟩
      rw [TupleElement.unplacedList, TupleElement.unplacedList, TupleElement.textOfList,
        TupleElement.textOfList, first]
  | ⟨type, name⟩ :: ⟨next, other⟩ :: rest => by
      have first := TupleElement.text_unplaced ⟨type, name⟩
      have later := TupleElement.textOfList_unplaced (⟨next, other⟩ :: rest)
      rw [TupleElement.unplacedList] at later
      rw [TupleElement.unplacedList, TupleElement.unplacedList, TupleElement.textOfList,
        TupleElement.textOfList, first, later]

end

namespace TypePiece

/-- The canonical spelling of what a stretch of tokens spells. -/
def text : TypePiece → String
  | .type written => written.text
  | .part written => written.text
  | .segments written => NameSegment.textOfList written
  | .arguments written => TypeExpr.textOfList written
  | .element written => written.text
  | .elements written => TupleElement.textOfList written
  | .noType => ""
  | .noElements => ""

/-- The canonical spelling of a piece neatly writes tokens that spell it. -/
def IsWritten : TypePiece → Prop
  | .noType | .noElements => True
  | piece => ∃ kinds, Spells kinds piece ∧ WritesNeatly piece.text.toList kinds

end TypePiece

section Spelling

open Lexeme TypePiece

/-- The dimensions of an array are written between brackets. -/
theorem writesNeatly_arraySuffix (commas : Nat) :
    WritesNeatly (TypeExpr.arraySuffix (1 + commas)).toList
      (.mark .leftBracket :: (List.replicate commas (.mark .comma) ++ [.mark .rightBracket])) := by
  have inner : WritesNeatly (List.replicate commas ',' ++ [']'])
      (List.replicate commas (.mark .comma) ++ [.mark .rightBracket]) := by
    induction commas with
    | zero => exact .mark rfl (by decide)
    | succ commas ih =>
        rw [List.replicate_succ, List.replicate_succ]
        exact ih.behind_mark rfl (by decide)
  have isText : (TypeExpr.arraySuffix (1 + commas)).toList =
      '[' :: (List.replicate commas ',' ++ [']']) := by
    simp [TypeExpr.arraySuffix]
  rw [isText]
  exact inner.behind_mark rfl (by decide)

/-- Whatever is spelled with words of the language is written by its canonical
spelling. -/
theorem Spells.isWritten {kinds : List TokenKind} {piece : TypePiece}
    (spells : Spells kinds piece)
    (words : ∀ name, TokenKind.ident name ∈ kinds → IsWord name.toList) : piece.IsWritten := by
  induction spells with
  | @keyword name known =>
      refine ⟨_, .keyword known, ?_⟩
      rw [TypePiece.text, TypeExpr.text]
      exact .word (words name (by simp))
  | @named name arguments segments kinds isName parts ih =>
      obtain ⟨again, spelled, written⟩ := ih words
      refine ⟨again, .named isName spelled, ?_⟩
      rw [TypePiece.text, TypeExpr.text]
      exact written
  | @qualified qualifier segments kinds isName parts ih =>
      obtain ⟨again, spelled, written⟩ := ih fun name member => words name (by simp [member])
      refine ⟨_, .qualified isName spelled, ?_⟩
      have isText : (TypeExpr.named (some qualifier) segments .nowhere).text.toList =
          qualifier.toList ++ ':' :: ':' :: (NameSegment.textOfList segments).toList := by
        rw [TypeExpr.text]
        simp
      rw [TypePiece.text, isText]
      exact (WritesNeatly.word (words qualifier (by simp))).append_colons written
  | @tuple elements kinds inner ih =>
      obtain ⟨again, spelled, written⟩ := ih fun name member => words name (by simp [member])
      refine ⟨_, .tuple spelled, ?_⟩
      have isText : (TypeExpr.tuple elements .nowhere).text.toList =
          '(' :: ((TupleElement.textOfList elements).toList ++ [')']) := by
        rw [TypeExpr.text]
        simp
      rw [TypePiece.text, isText]
      exact (written.concat_mark rfl (by decide)).behind_mark rfl (by decide)
  | @nullable inner kinds spelledInner ih =>
      obtain ⟨again, spelled, written⟩ := ih fun name member => words name (by simp [member])
      refine ⟨_, .nullable spelled, ?_⟩
      rw [TypePiece.text, TypeExpr.text, String.toList_append]
      exact written.concat_mark rfl (by decide)
  | @pointer inner kinds spelledInner ih =>
      obtain ⟨again, spelled, written⟩ := ih fun name member => words name (by simp [member])
      refine ⟨_, .pointer spelled, ?_⟩
      rw [TypePiece.text, TypeExpr.text, String.toList_append]
      exact written.concat_mark rfl (by decide)
  | @array inner kinds commas spelledInner ih =>
      obtain ⟨again, spelled, written⟩ := ih fun name member => words name (by simp [member])
      refine ⟨_, .array commas spelled, ?_⟩
      rw [TypePiece.text, TypeExpr.text, String.toList_append]
      refine written.append (writesNeatly_arraySuffix commas) fun d isHead => ?_
      obtain rfl : '[' = d := by simpa [TypeExpr.arraySuffix] using isHead
      decide
  | plainPart name =>
      refine ⟨_, .plainPart name, ?_⟩
      rw [TypePiece.text, NameSegment.text]
      exact .word (words name (by simp))
  | @genericPart name arguments kinds inner ih =>
      obtain ⟨again, spelled, written⟩ := ih fun name member => words name (by simp [member])
      refine ⟨_, .genericPart name spelled, ?_⟩
      have isText : (NameSegment.text ⟨name, arguments⟩).toList =
          name.toList ++ '<' :: ((TypeExpr.textOfList arguments).toList ++ ['>']) := by
        cases arguments with
        | nil => exact absurd rfl inner.arguments_ne_nil
        | cons first rest =>
            rw [NameSegment.text]
            simp
      rw [TypePiece.text, isText]
      exact (WritesNeatly.word (words name (by simp))).append_mark rfl (by decide)
        (written.concat_mark rfl (by decide))
  | @lastPart segment kinds last ih =>
      obtain ⟨again, spelled, written⟩ := ih words
      refine ⟨again, .lastPart spelled, ?_⟩
      rw [TypePiece.text, NameSegment.textOfList]
      exact written
  | @moreParts segment segments kinds more first rest ihFirst ihRest =>
      obtain ⟨again, spelled, written⟩ := ihFirst fun name member => words name (by simp [member])
      obtain ⟨behind, spelledRest, writtenRest⟩ :=
        ihRest fun name member => words name (by simp [member])
      refine ⟨_, .moreParts spelled spelledRest, ?_⟩
      have isText : (NameSegment.textOfList (segment :: segments)).toList =
          segment.text.toList ++ '.' :: (NameSegment.textOfList segments).toList := by
        cases segments with
        | nil => cases rest
        | cons next segments =>
            rw [NameSegment.textOfList]
            simp
      rw [TypePiece.text, isText]
      exact written.append_mark rfl (by decide) writtenRest
  | @lastArgument inner kinds last ih =>
      obtain ⟨again, spelled, written⟩ := ih words
      refine ⟨again, .lastArgument spelled, ?_⟩
      rw [TypePiece.text, TypeExpr.textOfList]
      exact written
  | @moreArguments inner types kinds more first rest ihFirst ihRest =>
      obtain ⟨again, spelled, written⟩ := ihFirst fun name member => words name (by simp [member])
      obtain ⟨behind, spelledRest, writtenRest⟩ :=
        ihRest fun name member => words name (by simp [member])
      refine ⟨_, .moreArguments spelled spelledRest, ?_⟩
      have isText : (TypeExpr.textOfList (inner :: types)).toList =
          inner.text.toList ++ ',' :: ' ' :: (TypeExpr.textOfList types).toList := by
        cases types with
        | nil => exact absurd rfl rest.arguments_ne_nil
        | cons next types =>
            rw [TypeExpr.textOfList]
            simp
      rw [TypePiece.text, isText]
      exact written.append_comma writtenRest
  | @lastArgumentAndNoType inner kinds more first rest ihFirst ihRest =>
      -- what is no type is not written again
      obtain ⟨again, spelled, written⟩ := ihFirst fun name member => words name (by simp [member])
      refine ⟨again, .lastArgument spelled, ?_⟩
      rw [TypePiece.text, TypeExpr.textOfList]
      exact written
  | @element inner kinds name spelledInner ih =>
      obtain ⟨again, spelled, written⟩ := ih fun name member => words name (by simp [member])
      refine ⟨_, .element name spelled, ?_⟩
      cases name with
      | none =>
          rw [Option.toList_none, List.map_nil, List.append_nil, TypePiece.text, TupleElement.text]
          exact written
      | some name =>
          have isText : (TupleElement.text ⟨inner, some name⟩).toList =
              inner.text.toList ++ ' ' :: name.toList := by
            rw [TupleElement.text]
            simp
          rw [TypePiece.text, isText]
          exact written.spaced (.word (words name (by simp)))
  | @lastElement element kinds last ih =>
      obtain ⟨again, spelled, written⟩ := ih words
      refine ⟨again, .lastElement spelled, ?_⟩
      rw [TypePiece.text, TupleElement.textOfList]
      exact written
  | @moreElements element elements kinds more first rest ihFirst ihRest =>
      obtain ⟨again, spelled, written⟩ := ihFirst fun name member => words name (by simp [member])
      obtain ⟨behind, spelledRest, writtenRest⟩ :=
        ihRest fun name member => words name (by simp [member])
      refine ⟨_, .moreElements spelled spelledRest, ?_⟩
      have isText : (TupleElement.textOfList (element :: elements)).toList =
          element.text.toList ++ ',' :: ' ' :: (TupleElement.textOfList elements).toList := by
        cases elements with
        | nil => cases rest
        | cons next elements =>
            rw [TupleElement.textOfList]
            simp
      rw [TypePiece.text, isText]
      exact written.append_comma writtenRest
  | nothing | qualifierOnly _ | openTuple _ | openArray _ _ => trivial
  | unclosedElement _ | noElement _ | moreNoElements _ _ => trivial

/-- The canonical spelling of a type that is spelled with words of the language is
read as the same type. -/
theorem TypeExpr.parse_text {kinds : List TokenKind} {type : TypeExpr}
    (spells : Spells kinds (.type type))
    (words : ∀ name, TokenKind.ident name ∈ kinds → IsWord name.toList) :
    ∃ read, TypeExpr.parse type.text = .ok read ∧ read.unplaced = type := by
  obtain ⟨again, spelled, ⟨chunks, isText, kindsAre, cut⟩, -⟩ := spells.isWritten words
  let file := SourceFile.ofText "<type>" type.text
  let tokens := Token.tokens file
  have tokensAre : tokens = Chunk.placed file 0 chunks :=
    Chunk.tokens_of_cut (cut [] (.of_head nofun)) isText
  have tokenKinds : tokens.map (·.kind) = again := by
    rw [tokensAre, Chunk.map_kind_placed, kindsAre]
  let later : Cursor := ⟨Token.lastOf none tokens, [], []⟩
  have ends : later.EndsType := ⟨⟨nofun, nofun, nofun⟩, nofun, nofun, nofun⟩
  obtain ⟨read, same, run⟩ := (spelled.isRead (tokens.length + 1) file none tokens [] []
    tokenKinds).ok (by simp) ends
  have typeRun : Parser.type file (Cursor.start tokens) = .ok read later := by
    have enough : (tokens ++ []).length < tokens.length + 1 := by simp
    have run := (Parser.typeWithin_eq_type enough).symm.trans run
    rwa [List.append_nil] at run
  refine ⟨read, ?_, same⟩
  simp only [TypeExpr.parse, Parser.bind_apply]
  rw [typeRun]
  rfl

end Spelling

end ErrorAccessors
