/-
# What types are built from

A type that was read has a word for every name in it, and no part of it is
missing: a dotted name has a last part, an array has a dimension and a tuple has an
element.  None of that is said by the type `TypeExpr` itself.  It follows from the
grammar that reading agrees with, because the only names among the tokens of a text
are words.  For what a type is bound to less is enough, and such types are proper.
-/

import ErrorAccessors.Parser.Declaration
import ErrorAccessors.Proofs.LexemeForms
import ErrorAccessors.Proofs.SpelledTypes

namespace ErrorAccessors

namespace Lexeme

theorem IsWord.ne_empty {name : String} (isWord : IsWord name.toList) : name ≠ "" := by
  rintro rfl
  obtain ⟨c, tail, isText, -⟩ := isWord
  simp at isText

/-- A word holds no character that continues no word. -/
theorem IsWord.notMem {text : List Char} {c : Char} (isWord : IsWord text)
    (begins : beginsWord c = false) (continues : continuesWord c = false) : c ∉ text := by
  obtain ⟨first, tail, rfl, isFirst, inTail⟩ := isWord
  intro member
  rcases List.mem_cons.mp member with rfl | later
  · rw [begins] at isFirst
    cases isFirst
  · have := inTail c later
    rw [continues] at this
    cases this

/-- A word holds no dot. -/
theorem IsWord.dot_notMem {text : List Char} (isWord : IsWord text) : '.' ∉ text :=
  isWord.notMem (by decide) (by decide)

end Lexeme

/-- The identifiers among some tokens are words. -/
def Token.AreWords (tokens : List Token) : Prop :=
  ∀ token ∈ tokens, ∀ name, token.kind = .ident name → Lexeme.IsWord name.toList

namespace Token

theorem AreWords.of_suffix {tokens behind : List Token} (words : AreWords tokens)
    (isSuffix : behind <:+ tokens) : AreWords behind :=
  fun token member => words token (isSuffix.subset member)

/-- The identifiers in a text are words. -/
theorem areWords_tokensFrom (file : SourceFile) (offset : Nat) (text : List Char) :
    AreWords (tokensFrom file offset text) := by
  induction length : text.length using Nat.strongRecOn generalizing text offset with
  | ind size ih =>
  cases text with
  | nil =>
      rw [tokensFrom]
      exact List.forall_mem_nil _
  | cons c rest =>
      let lexeme := Lexeme.first c rest
      have behind (offset : Nat) :
          AreWords (tokensFrom file offset (rest.drop lexeme.more)) := by
        refine ih _ ?_ offset _ rfl
        rw [List.length_drop, ← length, List.length_cons]
        omega
      rw [tokensFrom]
      cases isKind : lexeme.kind with
      | none => exact behind _
      | some kind =>
          intro token member name isIdent
          rcases List.mem_cons.mp member with rfl | later
          · obtain rfl : kind = .ident name := isIdent
            have whole := List.take_append_drop lexeme.more rest
            have isIdent : (Lexeme.first c (rest.take lexeme.more ++ rest.drop lexeme.more)).kind =
                some (.ident name) := by rw [whole]; exact isKind
            exact (Lexeme.ident_spelling isIdent (by rw [whole])).2.1
          · exact behind _ token later name isIdent

/-- The identifiers of a file are words. -/
theorem areWords_tokens (file : SourceFile) : AreWords (tokens file) :=
  areWords_tokensFrom file 0 file.text.toList

end Token

open Lexeme

/-- A type that the reader of types can give: all its names are words and all its
parts are there, and a name is not taken for a built-in type. -/
inductive TypeExpr.IsWellFormed : TypeExpr → Prop
  | predefined {keyword : String} {span : Span} (known : keyword ∈ TypeExpr.keywords) :
      IsWellFormed (.predefined keyword span)
  | named {qualifier : Option String} {first : NameSegment} {others : List NameSegment}
      {span : Span} (isName : qualifier.getD first.name ∉ TypeExpr.keywords)
      (qualified : ∀ word ∈ qualifier, IsWord word.toList)
      (words : ∀ segment ∈ first :: others, IsWord segment.name.toList)
      (arguments : ∀ segment ∈ first :: others,
        ∀ argument ∈ segment.arguments, IsWellFormed argument) :
      IsWellFormed (.named qualifier (first :: others) span)
  | nullable {inner : TypeExpr} {span : Span} (formed : IsWellFormed inner) :
      IsWellFormed (.nullable inner span)
  | array {element : TypeExpr} {rank : Nat} {span : Span} (formed : IsWellFormed element)
      (dimension : 1 ≤ rank) : IsWellFormed (.array element rank span)
  | pointer {inner : TypeExpr} {span : Span} (formed : IsWellFormed inner) :
      IsWellFormed (.pointer inner span)
  | tuple {elements : List TupleElement} {span : Span} (some : elements ≠ [])
      (formed : ∀ element ∈ elements, IsWellFormed element.type)
      (words : ∀ element ∈ elements, ∀ name ∈ element.name, IsWord name.toList) :
      IsWellFormed (.tuple elements span)

theorem TypeExpr.isWellFormed_named_iff {qualifier : Option String}
    {segments : List NameSegment} {span : Span} : (named qualifier segments span).IsWellFormed ↔
      segments ≠ [] ∧ (∀ first ∈ segments.head?, qualifier.getD first.name ∉ keywords) ∧
      (∀ word ∈ qualifier, IsWord word.toList) ∧
      ∀ segment ∈ segments, IsWord segment.name.toList ∧
        ∀ argument ∈ segment.arguments, argument.IsWellFormed := by
  constructor
  · intro formed
    cases formed with
    | named isName qualified words arguments =>
        exact ⟨List.cons_ne_nil _ _, by simpa using isName, qualified,
          fun segment member => ⟨words segment member, arguments segment member⟩⟩
  · rintro ⟨some, isName, qualified, each⟩
    obtain ⟨first, others, rfl⟩ := List.exists_cons_of_ne_nil some
    exact .named (isName first rfl) qualified (fun segment member => (each segment member).1)
      fun segment member => (each segment member).2

/-- Whether a type is well formed does not depend on where it stands. -/
theorem TypeExpr.IsWellFormed.of_unplaced {type : TypeExpr}
    (formed : type.unplaced.IsWellFormed) : type.IsWellFormed := by
  generalize isType : type.unplaced = unplaced at formed
  -- only the form that the type has without its places is left in each case
  induction formed generalizing type <;> cases type <;>
    simp only [unplaced_predefined, unplaced_named, unplaced_nullable, unplaced_array,
      unplaced_pointer, unplaced_tuple, reduceCtorEq] at isType
  case predefined known _ _ =>
      cases isType
      exact .predefined known
  case named isName qualified words arguments ih _ segments _ =>
      obtain ⟨rfl, isSegments, -⟩ := TypeExpr.named.inj isType
      cases segments with
      | nil => cases isSegments
      | cons first others =>
          obtain ⟨rfl, rfl⟩ := List.cons.inj isSegments
          refine .named isName qualified (fun segment member => ?_)
            fun segment member argument inArguments => ?_
          · exact words segment.unplaced (List.mem_map_of_mem (f := NameSegment.unplaced) member)
          · exact ih segment.unplaced (List.mem_map_of_mem (f := NameSegment.unplaced) member)
              argument.unplaced (List.mem_map_of_mem inArguments) rfl
  case nullable ih _ _ =>
      cases isType
      exact .nullable (ih rfl)
  case array dimension ih _ _ _ =>
      cases isType
      exact .array (ih rfl) dimension
  case pointer ih _ _ =>
      cases isType
      exact .pointer (ih rfl)
  case tuple some formed words ih _ _ =>
      cases isType
      refine .tuple (fun nothing => some (by rw [nothing]; rfl)) (fun element member => ?_)
        fun element member => ?_
      · exact ih element.unplaced (List.mem_map_of_mem member) rfl
      · exact words element.unplaced (List.mem_map_of_mem member)

theorem TypeExpr.IsWellFormed.unplaced {type : TypeExpr} (formed : type.IsWellFormed) :
    type.unplaced.IsWellFormed := by
  induction formed with
  | predefined known => exact .predefined known
  | @named qualifier first others span isName isWord words arguments ih =>
      have unplacedWords : ∀ segment ∈ (first :: others).map NameSegment.unplaced,
          IsWord segment.name.toList := List.forall_mem_map.mpr words
      have unplacedArguments : ∀ segment ∈ (first :: others).map NameSegment.unplaced,
          ∀ argument ∈ segment.arguments, argument.IsWellFormed :=
        List.forall_mem_map.mpr fun segment part => List.forall_mem_map.mpr (ih segment part)
      rw [unplaced_named]
      exact .named isName isWord unplacedWords unplacedArguments
  | nullable formed ih => rw [unplaced_nullable]; exact .nullable ih
  | array formed dimension ih => rw [unplaced_array]; exact .array ih dimension
  | pointer formed ih => rw [unplaced_pointer]; exact .pointer ih
  | tuple some formed words ih =>
      rw [unplaced_tuple]
      exact .tuple (mt List.map_eq_nil_iff.mp some) (List.forall_mem_map.mpr ih)
        (List.forall_mem_map.mpr words)

/-- A type whose dotted names are made of words and whose names and tuples are not
empty. -/
inductive TypeExpr.IsProper : TypeExpr → Prop
  | predefined {keyword : String} {span : Span} (known : keyword ∈ TypeExpr.keywords) :
      IsProper (.predefined keyword span)
  | named {qualifier : Option String} {segments : List NameSegment} {span : Span}
      (some : segments ≠ [])
      (words : ∀ segment ∈ segments, Lexeme.IsWord segment.name.toList)
      (arguments : ∀ segment ∈ segments, ∀ argument ∈ segment.arguments, IsProper argument) :
      IsProper (.named qualifier segments span)
  | nullable {inner : TypeExpr} {span : Span} (proper : IsProper inner) :
      IsProper (.nullable inner span)
  | array {element : TypeExpr} {rank : Nat} {span : Span} (proper : IsProper element) :
      IsProper (.array element rank span)
  | pointer {inner : TypeExpr} {span : Span} (proper : IsProper inner) :
      IsProper (.pointer inner span)
  | tuple {elements : List TupleElement} {span : Span} (some : elements ≠ [])
      (proper : ∀ element ∈ elements, IsProper element.type) : IsProper (.tuple elements span)

/-- A well-formed type is proper. -/
theorem TypeExpr.IsWellFormed.isProper {type : TypeExpr} (formed : type.IsWellFormed) :
    type.IsProper := by
  induction formed with
  | predefined known => exact .predefined known
  | named isName qualified words arguments ih => exact .named (List.cons_ne_nil _ _) words ih
  | nullable formed ih => exact .nullable ih
  | array formed dimension ih => exact .array ih
  | pointer formed ih => exact .pointer ih
  | tuple some formed words ih => exact .tuple some ih

/-- A piece of a type that the reader of types can give. -/
def TypePiece.IsWellFormed : TypePiece → Prop
  | .type read => read.IsWellFormed
  | .part named =>
    IsWord named.name.toList ∧ ∀ argument ∈ named.arguments, argument.IsWellFormed
  | .segments names => ∀ segment ∈ names,
    IsWord segment.name.toList ∧ ∀ argument ∈ segment.arguments, argument.IsWellFormed
  | .arguments types => ∀ argument ∈ types, argument.IsWellFormed
  | .element typed =>
    typed.type.IsWellFormed ∧ ∀ name ∈ typed.name, IsWord name.toList
  | .elements items => items ≠ [] ∧ ∀ element ∈ items,
    element.type.IsWellFormed ∧ ∀ name ∈ element.name, IsWord name.toList
  | .noType => True
  | .noElements => True

/-- What is spelled with words is well formed. -/
theorem Spells.isWellFormed {kinds : List TokenKind} {piece : TypePiece}
    (spells : Spells kinds piece)
    (words : ∀ name, TokenKind.ident name ∈ kinds → IsWord name.toList) : piece.IsWellFormed := by
  induction spells with
  | keyword known => exact TypeExpr.IsWellFormed.predefined known
  | named isName parts ih =>
      exact TypeExpr.IsWellFormed.named isName nofun
        (fun segment member => (ih words segment member).1)
        fun segment member => (ih words segment member).2
  | @qualified qualifier segments kinds isName parts ih =>
      have formed := ih fun name member => words name (by simp [member])
      cases segments with
      | nil => cases parts
      | cons first others =>
          refine TypeExpr.IsWellFormed.named isName (fun word isQualifier => ?_)
            (fun segment member => (formed segment member).1)
            fun segment member => (formed segment member).2
          cases isQualifier
          exact words qualifier List.mem_cons_self
  | tuple inner ih =>
      obtain ⟨some, formed⟩ := ih fun name member => words name (by simp [member])
      exact TypeExpr.IsWellFormed.tuple some (fun element member => (formed element member).1)
        fun element member => (formed element member).2
  | nullable inner ih =>
      exact TypeExpr.IsWellFormed.nullable (ih fun name member => words name (by simp [member]))
  | pointer inner ih =>
      exact TypeExpr.IsWellFormed.pointer (ih fun name member => words name (by simp [member]))
  | array commas inner ih =>
      exact TypeExpr.IsWellFormed.array (ih fun name member => words name (by simp [member]))
        (Nat.le_add_right 1 commas)
  | plainPart name => exact ⟨words name (by simp), nofun⟩
  | genericPart name inner ih =>
      exact ⟨words name (by simp), ih fun name member => words name (by simp [member])⟩
  | lastPart last ih => exact List.forall_mem_singleton.mpr (ih words)
  | moreParts first rest ihFirst ihRest =>
      exact List.forall_mem_cons.mpr ⟨ihFirst fun name member => words name (by simp [member]),
        ihRest fun name member => words name (by simp [member])⟩
  | lastArgument last ih => exact List.forall_mem_singleton.mpr (ih words)
  | moreArguments first rest ihFirst ihRest =>
      exact List.forall_mem_cons.mpr ⟨ihFirst fun name member => words name (by simp [member]),
        ihRest fun name member => words name (by simp [member])⟩
  | lastArgumentAndNoType first rest ihFirst ihRest =>
      exact List.forall_mem_singleton.mpr
        (ihFirst fun name member => words name (by simp [member]))
  | element name inner ih =>
      refine ⟨ih fun name member => words name (by simp [member]), fun word isName => ?_⟩
      cases isName
      exact words word (by simp)
  | lastElement last ih =>
      exact ⟨List.cons_ne_nil _ _, List.forall_mem_singleton.mpr (ih words)⟩
  | moreElements first rest ihFirst ihRest =>
      refine ⟨List.cons_ne_nil _ _, List.forall_mem_cons.mpr ⟨?_, ?_⟩⟩
      · exact ihFirst fun name member => words name (by simp [member])
      · exact (ihRest fun name member => words name (by simp [member])).2
  | nothing | qualifierOnly | openTuple | openArray | unclosedElement | noElement
  | moreNoElements => exact trivial

/-- A type that is read in front of words is well formed. -/
theorem Parser.type_isWellFormed {file : SourceFile} {cursor later : Cursor} {read : TypeExpr}
    (words : Token.AreWords cursor.remaining)
    (run : Parser.type file cursor = .ok read later) : read.IsWellFormed := by
  obtain ⟨tokens, remaining, spells⟩ := type_spelled run
  refine .of_unplaced (spells.isWellFormed fun name member => ?_)
  obtain ⟨token, inTokens, isIdent⟩ := List.mem_map.mp member
  exact words token (remaining ▸ List.mem_append_left _ inTokens) name isIdent

/-- A text that is exactly one type is read as that type up to its end. -/
theorem TypeExpr.exists_run_of_parse {text : String} {type : TypeExpr}
    (parsed : TypeExpr.parse text = .ok type) :
    ∃ later, later.remaining = [] ∧ Parser.type (.ofText "<type>" text)
      (Cursor.start (Token.tokens (.ofText "<type>" text))) = .ok type later := by
  generalize isFile : SourceFile.ofText "<type>" text = file
  simp only [TypeExpr.parse, isFile, Parser.bind_apply] at parsed
  cases run : Parser.type file (Cursor.start (Token.tokens file)) with
  | error diagnostic later => simp [run] at parsed
  | ok read later =>
      simp only [run, Parser.atEnd_apply] at parsed
      cases isEnd : later.remaining.isEmpty with
      | true =>
          simp only [isEnd, if_true, Parser.pure_apply] at parsed
          cases parsed
          exact ⟨later, List.isEmpty_iff.mp isEnd, rfl⟩
      | false => simp [isEnd, Parser.bind_apply] at parsed

/-- A text that is exactly one type is a well-formed one. -/
theorem TypeExpr.isWellFormed_of_parse {text : String} {type : TypeExpr}
    (parsed : TypeExpr.parse text = .ok type) : type.IsWellFormed := by
  obtain ⟨later, -, run⟩ := TypeExpr.exists_run_of_parse parsed
  exact Parser.type_isWellFormed (Token.areWords_tokens _) run

end ErrorAccessors
