/-
# Printing a type and reading it back

A type may be printed and read without loss if it is one that reading can give:
its names are words, none of its parts is missing, and it does not begin with
the keyword of a built-in type unless it is that type.  Reading never gives any
other type, so printing what was read and reading it again changes nothing, and
a second printing gives the same text.

The texts that are read are many more than those that are printed.  A text may
hold comments, at signs in front of names and a comma behind the last type
argument; none of that is kept.
-/

import ErrorAccessors.Proofs.ProperTypes
import ErrorAccessors.Proofs.TypeText

namespace ErrorAccessors

open Lexeme

section Printed

/-- Some tokens that spell a piece of a type with words of the language. -/
private def TypePiece.HasSpelling (piece : TypePiece) : Prop :=
  ∃ kinds, Spells kinds piece ∧ ∀ name, TokenKind.ident name ∈ kinds → IsWord name.toList

open TypePiece

private theorem hasSpelling_arguments {first : TypeExpr} {others : List TypeExpr}
    (spelled : ∀ type ∈ first :: others, HasSpelling (.type type.unplaced)) :
    HasSpelling (.arguments ((first :: others).map TypeExpr.unplaced)) := by
  induction others generalizing first with
  | nil =>
      obtain ⟨kinds, spells, words⟩ := spelled first List.mem_cons_self
      exact ⟨kinds, .lastArgument spells, words⟩
  | cons next others ih =>
      obtain ⟨kinds, spells, words⟩ := spelled first List.mem_cons_self
      obtain ⟨more, spellsMore, wordsMore⟩ :=
        ih fun type member => spelled type (List.mem_cons_of_mem _ member)
      refine ⟨_, .moreArguments spells spellsMore, fun name member => ?_⟩
      simp only [List.mem_append, List.mem_cons, reduceCtorEq, false_or] at member
      exact member.elim (words name) (wordsMore name)

private theorem hasSpelling_part {segment : NameSegment} (isWord : IsWord segment.name.toList)
    (spelled : ∀ type ∈ segment.arguments, HasSpelling (.type type.unplaced)) :
    HasSpelling (.part segment.unplaced) := by
  obtain ⟨name, arguments⟩ := segment
  cases arguments with
  | nil =>
      refine ⟨_, .plainPart name, fun other member => ?_⟩
      cases List.mem_singleton.mp member
      exact isWord
  | cons first others =>
      obtain ⟨kinds, spells, words⟩ := hasSpelling_arguments spelled
      refine ⟨_, .genericPart name spells, fun other member => ?_⟩
      simp only [List.mem_cons, List.mem_append, TokenKind.ident.injEq, reduceCtorEq, false_or,
        List.not_mem_nil, or_false] at member
      rcases member with rfl | inArguments
      · exact isWord
      · exact words other inArguments

private theorem hasSpelling_segments {first : NameSegment} {others : List NameSegment}
    (spelled : ∀ segment ∈ first :: others, HasSpelling (.part segment.unplaced)) :
    HasSpelling (.segments ((first :: others).map NameSegment.unplaced)) := by
  induction others generalizing first with
  | nil =>
      obtain ⟨kinds, spells, words⟩ := spelled first List.mem_cons_self
      exact ⟨kinds, .lastPart spells, words⟩
  | cons next others ih =>
      obtain ⟨kinds, spells, words⟩ := spelled first List.mem_cons_self
      obtain ⟨more, spellsMore, wordsMore⟩ :=
        ih fun segment member => spelled segment (List.mem_cons_of_mem _ member)
      refine ⟨_, .moreParts spells spellsMore, fun name member => ?_⟩
      simp only [List.mem_append, List.mem_cons, reduceCtorEq, false_or] at member
      exact member.elim (words name) (wordsMore name)

private theorem hasSpelling_element {element : TupleElement}
    (spelled : HasSpelling (.type element.type.unplaced))
    (words : ∀ name ∈ element.name, IsWord name.toList) :
    HasSpelling (.element element.unplaced) := by
  obtain ⟨kinds, spells, inType⟩ := spelled
  refine ⟨_, .element element.name spells, fun name member => ?_⟩
  rcases List.mem_append.mp member with before | isName
  · exact inType name before
  · obtain ⟨word, isWord, same⟩ := List.mem_map.mp isName
    cases same
    exact words _ (Option.mem_toList.mp isWord)

private theorem hasSpelling_elements {first : TupleElement} {others : List TupleElement}
    (spelled : ∀ element ∈ first :: others, HasSpelling (.element element.unplaced)) :
    HasSpelling (.elements ((first :: others).map TupleElement.unplaced)) := by
  induction others generalizing first with
  | nil =>
      obtain ⟨kinds, spells, words⟩ := spelled first List.mem_cons_self
      exact ⟨kinds, .lastElement spells, words⟩
  | cons next others ih =>
      obtain ⟨kinds, spells, words⟩ := spelled first List.mem_cons_self
      obtain ⟨more, spellsMore, wordsMore⟩ :=
        ih fun element member => spelled element (List.mem_cons_of_mem _ member)
      refine ⟨_, .moreElements spells spellsMore, fun name member => ?_⟩
      simp only [List.mem_append, List.mem_cons, reduceCtorEq, false_or] at member
      exact member.elim (words name) (wordsMore name)

/-- A mark behind a spelled type brings no new words. -/
private theorem hasSpelling_marked {piece result : TypePiece} (marks : List Mark)
    (suffix : ∀ kinds, Spells kinds piece → Spells (kinds ++ marks.map .mark) result)
    (spelled : HasSpelling piece) : HasSpelling result := by
  obtain ⟨kinds, spells, words⟩ := spelled
  refine ⟨_, suffix kinds spells, fun name member => words name ?_⟩
  simpa using member

/-- Every well-formed type is spelled by some tokens, and with words of the
language. -/
private theorem TypeExpr.IsWellFormed.hasSpelling {type : TypeExpr} (formed : type.IsWellFormed) :
    HasSpelling (.type type.unplaced) := by
  induction formed with
  | @predefined keyword span known =>
      rw [unplaced_predefined]
      refine ⟨_, .keyword known, fun name member => ?_⟩
      cases List.mem_singleton.mp member
      exact isWord_of_keyword known
  | @named qualifier first others span isName qualified words arguments ih =>
      have parts : HasSpelling (.segments ((first :: others).map NameSegment.unplaced)) :=
        hasSpelling_segments fun segment member =>
          hasSpelling_part (words segment member) (ih segment member)
      obtain ⟨kinds, spells, inParts⟩ := parts
      rw [unplaced_named]
      cases qualifier with
      | none => exact ⟨kinds, .named isName spells, inParts⟩
      | some word =>
          refine ⟨_, .qualified isName spells, fun name member => ?_⟩
          simp only [List.mem_cons, TokenKind.ident.injEq, reduceCtorEq, false_or] at member
          rcases member with rfl | inName
          · exact qualified name rfl
          · exact inParts name inName
  | nullable formed ih =>
      rw [unplaced_nullable]
      exact hasSpelling_marked [.question] (fun kinds => .nullable) ih
  | @array element rank span formed dimension ih =>
      obtain ⟨commas, rfl⟩ := Nat.exists_eq_add_of_le dimension
      rw [unplaced_array]
      refine hasSpelling_marked (.leftBracket :: (List.replicate commas .comma ++ [.rightBracket]))
        (fun kinds spells => ?_) ih
      simpa using Spells.array commas spells
  | pointer formed ih =>
      rw [unplaced_pointer]
      exact hasSpelling_marked [.star] (fun kinds => .pointer) ih
  | @tuple elements span some formed words ih =>
      rw [unplaced_tuple]
      cases elements with
      | nil => exact absurd rfl some
      | cons first others =>
          obtain ⟨kinds, spells, inElements⟩ := hasSpelling_elements fun element member =>
            hasSpelling_element (ih element member) (words element member)
          refine ⟨_, .tuple spells, fun name member => inElements name ?_⟩
          simpa using member
where
  isWord_of_keyword {keyword : String} (known : keyword ∈ TypeExpr.keywords) :
      IsWord keyword.toList := by
    have words : ∀ word ∈ TypeExpr.keywords, IsWord word.toList := by decide
    exact words keyword known

end Printed

/-- A well-formed type is read back from its text, up to places. -/
theorem TypeExpr.IsWellFormed.exists_parse_text {type : TypeExpr} (formed : type.IsWellFormed) :
    ∃ read, TypeExpr.parse type.text = .ok read ∧ read.unplaced = type.unplaced := by
  obtain ⟨kinds, spells, words⟩ := formed.hasSpelling
  have read := TypeExpr.parse_text spells words
  rwa [TypeExpr.text_unplaced] at read

/-- A text that is exactly one type is spelled by words of the language. -/
private theorem TypeExpr.hasSpelling_of_parse {text : String} {type : TypeExpr}
    (parsed : TypeExpr.parse text = .ok type) : TypePiece.HasSpelling (.type type.unplaced) :=
  (TypeExpr.isWellFormed_of_parse parsed).hasSpelling

/-- A well-formed type is read from its text up to places, and whatever a text
is read as is well formed.  So what was read is printed and read back as the same
type, and printing it again gives the same text. -/
theorem TypeExpr.text_round_trip :
    (∀ type : TypeExpr, type.IsWellFormed →
      ∃ read, TypeExpr.parse type.text = .ok read ∧ read.unplaced = type.unplaced) ∧
    ∀ (text : String) (type : TypeExpr), TypeExpr.parse text = .ok type →
      type.IsWellFormed ∧
        ∃ read, TypeExpr.parse type.text = .ok read ∧ read.unplaced = type.unplaced ∧
          read.text = type.text := by
  have again (type : TypeExpr) (spelled : TypePiece.HasSpelling (.type type.unplaced)) :
      ∃ read, TypeExpr.parse type.text = .ok read ∧ read.unplaced = type.unplaced := by
    obtain ⟨kinds, spells, words⟩ := spelled
    have read := TypeExpr.parse_text spells words
    rwa [TypeExpr.text_unplaced] at read
  refine ⟨fun type formed => again type formed.hasSpelling, fun text type parsed => ?_⟩
  have spelled := TypeExpr.hasSpelling_of_parse parsed
  obtain ⟨read, reads, same⟩ := again type spelled
  obtain ⟨kinds, spells, words⟩ := spelled
  refine ⟨.of_unplaced (spells.isWellFormed words), read, reads, same, ?_⟩
  rw [← read.text_unplaced, same, type.text_unplaced]

/-- The type `global::Map<int[,], (Key key, int?)>.Entry`. -/
private def entryType : TypeExpr :=
  .named (some "global")
    [⟨"Map", [.array (.predefined "int" .nowhere) 2 .nowhere,
      .tuple [⟨.named none [⟨"Key", []⟩] .nowhere, some "key"⟩,
        ⟨.nullable (.predefined "int" .nowhere) .nowhere, none⟩] .nowhere]⟩, ⟨"Entry", []⟩] .nowhere

/-- The type is read from its text, and also from one with comments, at signs and
a further comma. -/
theorem TypeExpr.text_round_trip_of_entryType :
    entryType.IsWellFormed ∧
      entryType.text = "global::Map<int[,], (Key key, int?)>.Entry" ∧
      (∃ read, TypeExpr.parse entryType.text = .ok read ∧ read.unplaced = entryType.unplaced) ∧
      ∃ type,
        TypeExpr.parse "global :: @Map<int [ , ], (Key /* of */ @key, int?),> . Entry" = .ok type ∧
        type.IsWellFormed ∧ ∃ read, TypeExpr.parse type.text = .ok read ∧
          read.unplaced = type.unplaced ∧ read.text = type.text := by
  have parses : (TypeExpr.parse
      "global :: @Map<int [ , ], (Key /* of */ @key, int?),> . Entry").toOption.isSome = true := by
    decide +kernel
  have key : TypeExpr.IsWellFormed (.named none [⟨"Key", []⟩] .nowhere) :=
    .named (by decide) nofun (List.forall_mem_singleton.mpr (by decide))
      (List.forall_mem_singleton.mpr nofun)
  have pair : TypeExpr.IsWellFormed (.tuple [⟨.named none [⟨"Key", []⟩] .nowhere, some "key"⟩,
      ⟨.nullable (.predefined "int" .nowhere) .nowhere, none⟩] .nowhere) :=
    .tuple (by simp)
      (List.forall_mem_cons.mpr ⟨key, List.forall_mem_singleton.mpr
        (.nullable (.predefined (by decide)))⟩)
      (by decide)
  have formed : entryType.IsWellFormed :=
    .named (by decide) (by decide) (by decide)
      (List.forall_mem_cons.mpr
        ⟨List.forall_mem_cons.mpr ⟨.array (.predefined (by decide)) (by decide),
          List.forall_mem_singleton.mpr pair⟩,
        List.forall_mem_singleton.mpr nofun⟩)
  cases parsed : TypeExpr.parse
      "global :: @Map<int [ , ], (Key /* of */ @key, int?),> . Entry" with
  | error diagnostics => rw [parsed] at parses; cases parses
  | ok type =>
      exact ⟨formed, by decide, TypeExpr.text_round_trip.1 entryType formed, type, rfl,
        TypeExpr.text_round_trip.2 _ type parsed⟩

end ErrorAccessors
