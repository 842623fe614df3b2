/-
# Tokens with spaces between them

A word, an integer, a text and a mark can be written down from what they are: the word
by itself, the integer as the number of its machine word, the text as a string literal
and the mark by its sign.  Written one behind the other with single spaces between
them, they are read back as they were.

A spelling followed by a space, or by nothing, is cut as one token.  What is written is
therefore cut from its front, one spelling and one space after the other.
-/

import ErrorAccessors.Proofs.LiteralText
import ErrorAccessors.Proofs.TokenStream

namespace ErrorAccessors

/-- How a token is written, where what it is says so.  An integer has to be one of the
signed readings of a machine word. -/
def TokenKind.spelling? : TokenKind → Option String
  | .ident name => if Lexeme.IsWord name.toList then some name else none
  | .integer value =>
    if -(Numeral.signBit : Int) ≤ value ∧ value < Numeral.signBit then
      some (toString (value % Numeral.wordCount).toNat)
    else none
  | .string value => some (StringLiteral.encode value)
  | .mark sign => some sign.text
  | _ => none

/-- A signed integer is the reading of its machine word. -/
theorem Numeral.signedWord_of_signed {value : Int} (least : -(signBit : Int) ≤ value)
    (less : value < signBit) :
    (value % wordCount).toNat < wordCount ∧ signedWord (value % wordCount).toNat = value := by
  have words : (wordCount : Int) = 2 * signBit := rfl
  have positive : (0 : Int) < signBit := by decide
  unfold signedWord
  by_cases negative : value < 0
  · have wrapped : value % wordCount = value + wordCount := by
      rw [← Int.add_emod_right, Int.emod_eq_of_lt (by omega) (by omega)]
    rw [wrapped, if_neg (by omega)]
    omega
  · rw [Int.emod_eq_of_lt (by omega) (by omega), if_pos (by omega)]
    omega

namespace Chunk

variable {rest : List Char}

/-- A token that is read in front of a rest is a chunk there. -/
theorem cutBefore_singleton {c : Char} {more : List Char} {kind : TokenKind}
    (read : Lexeme.first c (more ++ rest) = Lexeme.token more.length kind) :
    CutBefore rest [⟨c, more, some kind⟩] := by
  refine .cons ?_ ?_ .nil
  · rw [textOf_nil, List.nil_append, read]
    rfl
  · rw [textOf_nil, List.nil_append, read]
    exact List.take_left

/-- What may stand behind a spelling: a space or nothing. -/
private theorem space_cases (spaced : ∀ d ∈ rest.head?, d = ' ') :
    rest = [] ∨ ∃ more, rest = ' ' :: more := by
  cases rest with
  | nil => exact .inl rfl
  | cons d more => exact .inr ⟨more, by rw [spaced d rfl]⟩

/-- A mark in front of a space or of nothing is one token. -/
private theorem exists_cut_of_mark (mark : Mark) (spaced : ∀ d ∈ rest.head?, d = ' ') :
    ∃ chunk, chunk.text = mark.text.toList ∧ chunk.kind = some (.mark mark) ∧
      CutBefore rest [chunk] := by
  have alone {c : Char} {mark : Mark} (isMark : Lexeme.single? c = some (.mark mark))
      (noPair : c ≠ ':' ∧ c ≠ '=') : CutBefore rest [⟨c, [], some (.mark mark)⟩] :=
    cutBefore_singleton (Lexeme.first_of_mark isMark noPair rest)
  cases mark with
  | doubleColon => exact ⟨⟨':', [':'], _⟩, rfl, rfl, cutBefore_singleton rfl⟩
  | arrow => exact ⟨⟨'=', ['>'], _⟩, rfl, rfl, cutBefore_singleton rfl⟩
  | colon =>
      refine ⟨⟨':', [], _⟩, rfl, rfl, cutBefore_singleton ?_⟩
      rcases space_cases spaced with rfl | ⟨more, rfl⟩ <;> rfl
  | equals =>
      refine ⟨⟨'=', [], _⟩, rfl, rfl, cutBefore_singleton ?_⟩
      rcases space_cases spaced with rfl | ⟨more, rfl⟩ <;> rfl
  | _ => exact ⟨_, rfl, rfl, alone rfl (by decide)⟩

/-- A spelling in front of a space or of nothing is one token. -/
theorem exists_cut_of_spelling {kind : TokenKind} {word : String}
    (spelled : kind.spelling? = some word) (spaced : ∀ d ∈ rest.head?, d = ' ') :
    ∃ chunk, chunk.text = word.toList ∧ chunk.kind = some kind ∧ CutBefore rest [chunk] := by
  cases kind with
  | ident name =>
      simp only [TokenKind.spelling?, Option.ite_none_right_eq_some, Option.some.injEq] at spelled
      obtain ⟨isWord, rfl⟩ := spelled
      obtain ⟨c, tail, isText, begins, continues⟩ := isWord
      have isKind : String.ofList (c :: tail) = name := by rw [← isText, String.ofList_toList]
      refine ⟨⟨c, tail, some (.ident name)⟩, isText.symm, rfl, cutBefore_singleton ?_⟩
      rw [← isKind]
      refine Lexeme.first_of_word ⟨c, tail, rfl, begins, continues⟩ fun d isHead => ?_
      rw [spaced d isHead]
      decide
  | integer value =>
      simp only [TokenKind.spelling?, Option.ite_none_right_eq_some, Option.some.injEq] at spelled
      obtain ⟨⟨least, less⟩, rfl⟩ := spelled
      obtain ⟨fits, isValue⟩ := Numeral.signedWord_of_signed least less
      generalize (value % Numeral.wordCount).toNat = number at fits isValue
      have isText : (toString number).toList = Nat.toDigits 10 number := String.toList_ofList
      cases digits : Nat.toDigits 10 number with
      | nil => exact absurd digits (by simp)
      | cons digit more =>
          refine ⟨⟨digit, more, some (.integer value)⟩, by rw [isText, digits]; rfl, rfl,
            cutBefore_singleton ?_⟩
          rw [← isValue, ← Numeral.decimalKind_of_fits fits]
          refine Lexeme.first_of_toDigits digits fun d isHead => ?_
          rw [spaced d isHead]
          exact ⟨by decide, by decide⟩
  | string value =>
      obtain rfl := Option.some.inj spelled
      refine ⟨⟨'"', StringLiteral.encodeBody value.toList ++ ['"'], some (.string value)⟩,
        by simp [StringLiteral.encode, text], rfl, cutBefore_singleton ?_⟩
      have read := Lexeme.first_of_encode value.toList rest
      rw [String.ofList_toList] at read
      rw [List.append_assoc, List.length_append]
      exact read
  | mark mark =>
      obtain rfl := Option.some.inj spelled
      exact exists_cut_of_mark mark spaced
  | real _ | openString | character _ | operator | fault _ => cases spelled

/-- Spellings with spaces between them are cut into their tokens. -/
theorem exists_cut_of_spellings {kinds : List TokenKind} {words : List String}
    (spelled : kinds.mapM TokenKind.spelling? = some words) :
    ∃ chunks, textOf chunks = (" ".intercalate words).toList ∧ kindsOf chunks = kinds ∧
      CutBefore [] chunks := by
  induction kinds generalizing words with
  | nil =>
      obtain rfl : [] = words := Option.some.inj spelled
      exact ⟨[], rfl, rfl, .nil⟩
  | cons kind kinds ih =>
      simp only [List.mapM_cons, Option.bind_eq_bind, Option.bind_eq_some_iff, Option.pure_def,
        Option.some.injEq] at spelled
      obtain ⟨word, first, words, later, rfl⟩ := spelled
      obtain ⟨chunks, isText, rfl, cut⟩ := ih later
      cases words with
      | nil =>
          obtain ⟨chunk, isWord, isKind, cutFirst⟩ :=
            @exists_cut_of_spelling (textOf chunks) _ _ first (by simp [isText])
          rw [← List.append_nil (textOf chunks)] at cutFirst
          refine ⟨[chunk] ++ chunks, ?_, by simp [kindsOf, isKind],
            cutBefore_append.mpr ⟨cutFirst, cut⟩⟩
          rw [textOf_append, isText, String.intercalate_singleton, ← isWord, textOf,
            List.flatMap_singleton, String.intercalate_nil, String.toList_empty, List.append_nil]
      | cons next words =>
          let space : Chunk := ⟨' ', [], none⟩
          obtain ⟨chunk, isWord, isKind, cutFirst⟩ :=
            @exists_cut_of_spelling (textOf (space :: chunks)) _ _ first fun d isHead =>
              (Option.some.inj isHead).symm
          rw [← List.append_nil (textOf (space :: chunks))] at cutFirst
          refine ⟨[chunk] ++ space :: chunks, ?_, by simp [kindsOf, isKind, space],
            cutBefore_append.mpr ⟨cutFirst, .cons rfl rfl cut⟩⟩
          have isFirst : textOf [chunk] = word.toList := by
            rw [← isWord, textOf, List.flatMap_singleton]
          rw [textOf_append, isFirst, textOf_cons, isText, String.intercalate_cons_cons,
            String.toList_append, String.toList_append, List.append_assoc]
          rfl

end Chunk

/-- A text that is read as one lexeme has one token, which covers the whole file. -/
theorem Token.stream_of_single {text : String} {c : Char} {more : List Char} {kind : TokenKind}
    (isText : text.toList = c :: more) (read : Lexeme.first c more = Lexeme.token more.length kind)
    (path : String) :
    stream (.ofText path text) =
      [(some kind, (SourceFile.ofText path text).span 0 text.utf8ByteSize),
        (none, (SourceFile.ofText path text).span text.utf8ByteSize text.utf8ByteSize)] := by
  let file := SourceFile.ofText path text
  let chunk : Chunk := ⟨c, more, some kind⟩
  have cut : Chunk.CutBefore [] [chunk] := by
    apply Chunk.cutBefore_singleton
    rw [List.append_nil]
    exact read
  have isChunk : chunk.text = file.text.toList := isText.symm
  have covers : Chunk.textOf [chunk] = file.text.toList := by
    rw [Chunk.textOf_cons, Chunk.textOf_nil, List.append_nil]
    exact isChunk
  have size : 0 + Text.byteLength chunk.text = file.size := by
    rw [isChunk, Nat.zero_add, SourceFile.size, Text.utf8ByteSize_eq]
  have read : tokens file = [⟨kind, file.span 0 file.size⟩] := by
    rw [Chunk.tokens_of_cut cut covers, Chunk.placed_cons_of_some rfl, Chunk.placed_nil, size]
  rw [stream, read]
  rfl

/-- Tokens that are written one behind the other, with single spaces between them, are read
back as they were, and nothing else is. -/
theorem Token.stream_of_spellings {kinds : List TokenKind} {words : List String}
    (spelled : kinds.mapM TokenKind.spelling? = some words) (path : String) :
    (stream (.ofText path (" ".intercalate words))).map Prod.fst = kinds.map some ++ [none] := by
  obtain ⟨chunks, isText, rfl, cut⟩ := Chunk.exists_cut_of_spellings spelled
  have read : tokens (.ofText path (" ".intercalate words)) = Chunk.placed _ 0 chunks :=
    Chunk.tokens_of_cut cut isText
  rw [stream, read, List.map_append, List.map_map, ← Chunk.map_kind_placed, List.map_map]
  rfl

/-- Marks and numbers that a space alone keeps apart, and a text that looks like a comment. -/
theorem Token.stream_of_close_spellings :
    (stream (.ofText "Close.cs" ": : 18446744073709551615 . 5 \"// \\\"no\\\"\"")).map Prod.fst =
      [some (.mark .colon), some (.mark .colon), some (.integer (-1)), some (.mark .dot),
        some (.integer 5), some (.string "// \"no\""), none] := by
  have spelled : [.mark .colon, .mark .colon, .integer (-1), .mark .dot, .integer 5,
      .string "// \"no\""].mapM TokenKind.spelling? =
        some [":", ":", "18446744073709551615", ".", "5", "\"// \\\"no\\\"\""] := by decide
  exact stream_of_spellings spelled "Close.cs"

end ErrorAccessors
