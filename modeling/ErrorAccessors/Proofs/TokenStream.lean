/-
# Nothing of a text is lost

The tokens of a text and the stretches around them are the text again, each
character once.  What is left over between tokens, in front of the first one and
behind the last one, is trivia and nothing else, whatever the text is: characters
that begin no lexeme are faults, and a comment that does not end is one too.

Whether a stretch is trivia is said here by what it looks like, apart from how it is
read.  A comment to the end of its line has to be judged by what comes behind it, and
a block comment ends with the first end that can be found in it.

No end marker is among the tokens.  A reader that has passed all of them sees none,
at the empty place where the text ends, and the stream of a file is what a reader sees
on its way, with this last sight included.
-/

import ErrorAccessors.Proofs.LexemeForms
import Mathlib.Data.List.TakeWhile

namespace ErrorAccessors

open Lexeme

/-- The characters of white space. -/
def blankChars : List Char := [' ', '\t', '\r', '\n', '\x0c', '\uFEFF']

/-- A piece of trivia in front of something: a character of white space, a comment or a
directive up to the end of its line, or a comment up to the first end in it. -/
inductive Trivium (after : List Char) : List Char → Prop
  | blank {c : Char} (isBlank : c ∈ blankChars) : Trivium after [c]
  | line {text : List Char} (oneLine : '\n' ∉ text) (ends : ∀ d ∈ after.head?, d = '\n') :
      Trivium after ('/' :: '/' :: text)
  | directive {text : List Char} (oneLine : '\n' ∉ text) (ends : ∀ d ∈ after.head?, d = '\n') :
      Trivium after ('#' :: text)
  | block {body : List Char} (first : ¬['*', '/'] <:+: body ++ ['*']) :
      Trivium after ('/' :: '*' :: (body ++ ['*', '/']))

/-- A stretch that consists of trivia. -/
inductive IsTrivia (after : List Char) : List Char → Prop
  | nil : IsTrivia after []
  | cons {piece rest : List Char} (first : Trivium (rest ++ after) piece)
      (behind : IsTrivia after rest) : IsTrivia after (piece ++ rest)

namespace Lexeme

variable {c : Char} {tail rest : List Char}

/-- What is taken up to the end of a line is on one line, and the line ends there. -/
private theorem ends_of_lineLength
    (covers : (tail ++ rest).take (lineLength (tail ++ rest)) = tail) :
    '\n' ∉ tail ∧ ∀ d ∈ rest.head?, d = '\n' := by
  have isTail : (tail ++ rest).takeWhile (· ≠ '\n') = tail :=
    (List.prefix_iff_eq_take.mp (List.takeWhile_prefix _)).trans covers
  have isRest : (tail ++ rest).dropWhile (· ≠ '\n') = rest := by
    have whole := @List.takeWhile_append_dropWhile _ (· ≠ '\n') (tail ++ rest)
    rw [isTail] at whole
    exact List.append_cancel_left whole
  refine ⟨fun member => ?_, fun d isHead => ?_⟩
  · rw [← isTail] at member
    simpa using List.mem_takeWhile_imp member
  · have stops := List.head?_dropWhile_not (· ≠ '\n') (tail ++ rest)
    rw [isRest, show rest.head? = some d from isHead] at stops
    simpa using stops

/-- A block comment ends with the first end in it. -/
private theorem body_of_commentLength? {text : List Char} {length : Nat}
    (found : commentLength? text = some length) :
    ∃ body, text.take length = body ++ ['*', '/'] ∧ ¬['*', '/'] <:+: body ++ ['*'] := by
  induction text using commentLength?.induct generalizing length with
  | case1 => cases found
  | case2 more =>
      cases found
      exact ⟨[], rfl, by decide⟩
  | case3 d text other ih =>
      rw [commentLength?] at found
      · obtain ⟨less, foundLess, rfl⟩ := Option.map_eq_some_iff.mp found
        obtain ⟨body, isBody, first⟩ := ih foundLess
        refine ⟨d :: body, by rw [List.take_succ_cons, isBody]; rfl, fun within => ?_⟩
        rcases List.infix_cons_iff.mp within with ⟨more, here⟩ | later
        · -- the end would stand in front, where it has been looked for
          obtain ⟨isStar, behind⟩ := List.cons.inj here
          obtain ⟨others, isText⟩ : ∃ others, text = '/' :: others := by
            cases body with
            | nil => cases behind
            | cons e body =>
                obtain ⟨rfl, -⟩ := List.cons.inj behind
                cases text with
                | nil => simp at isBody
                | cons f text =>
                    cases less with
                    | zero => simp at isBody
                    | succ less =>
                        obtain ⟨rfl, -⟩ := List.cons.inj isBody
                        exact ⟨text, rfl⟩
          exact other others isStar.symm isText
        · exact first later
      · exact other

/-- A lexeme that is no token is a piece of trivia. -/
theorem trivium_of_first (trivial : (first c (tail ++ rest)).kind = none)
    (covers : (tail ++ rest).take (first c (tail ++ rest)).more = tail) :
    Trivium rest (c :: tail) := by
  cases form c (tail ++ rest) with
  | other other =>
      obtain ⟨kind, is, -⟩ := other
      rw [is] at trivial
      cases trivial
  | pair _ is | single _ is | verbatim _ _ is | word _ is =>
      rw [is] at trivial
      cases trivial
  | blank blank is =>
      rw [is] at covers
      obtain rfl : [] = tail := covers
      exact .blank (by simpa [isBlank, blankChars, or_assoc] using blank)
  | @line behind slashes is =>
      obtain ⟨rfl, isBehind⟩ := slashes
      have count : (trivia (1 + lineLength behind)).more = lineLength behind + 1 := Nat.add_comm ..
      rw [is, isBehind, count, List.take_succ_cons] at covers
      subst covers
      have covers : behind.take (lineLength behind) ++ rest = behind :=
        (List.cons.inj isBehind).2
      obtain ⟨oneLine, ends⟩ := @ends_of_lineLength (behind.take (lineLength behind)) rest
        (by rw [covers])
      exact .line oneLine ends
  | @block behind length opens closes is =>
      obtain ⟨rfl, isBehind⟩ := opens
      have count : (trivia (1 + length)).more = length + 1 := Nat.add_comm ..
      rw [is, isBehind, count, List.take_succ_cons] at covers
      obtain ⟨body, isBody, first⟩ := body_of_commentLength? closes
      rw [← covers, isBody]
      exact .block first
  | directive hash is =>
      subst hash
      rw [is] at covers
      obtain ⟨oneLine, ends⟩ := ends_of_lineLength covers
      exact .directive oneLine ends

end Lexeme

namespace Chunk

variable {rest : List Char} {chunks : List Chunk}

/-- Chunks without a token are trivia. -/
theorem isTrivia_of_cut (cut : CutBefore rest chunks) (noTokens : kindsOf chunks = []) :
    IsTrivia rest (textOf chunks) := by
  induction cut with
  | nil => exact .nil
  | @cons chunk chunks kind more behind ih =>
      cases isKind : chunk.kind with
      | some kind =>
          rw [kindsOf, List.filterMap_cons_some isKind] at noTokens
          cases noTokens
      | none =>
          rw [kindsOf, List.filterMap_cons_none isKind] at noTokens
          exact .cons (trivium_of_first (kind.trans isKind) more) (ih noTokens)

/-- The last token of chunks that end with a token ends where they do. -/
private theorem stop_of_getLast? {file : SourceFile} {offset : Nat} {last : Token}
    (isLast : (placed file offset chunks).getLast? = some last)
    (ends : ∀ chunk, chunks.getLast? = some chunk → chunk.kind.isSome = true) :
    last.span.stop.offset = offset + Text.byteLength (textOf chunks) := by
  rcases List.eq_nil_or_concat chunks with rfl | ⟨front, chunk, rfl⟩
  · cases isLast
  · rw [List.concat_eq_append] at isLast ends ⊢
    obtain ⟨kind, isKind⟩ := Option.isSome_iff_exists.mp (ends chunk List.getLast?_concat)
    rw [placed_append, placed_cons_of_some isKind, placed_nil, List.getLast?_concat] at isLast
    rw [← Option.some.inj isLast, SourceFile.span, SourceFile.position_offset]
    simp [text, Nat.add_assoc]

/-- The tokens of some chunks stand in order. -/
private theorem pairwise_placed (file : SourceFile) (offset : Nat) (chunks : List Chunk) :
    (placed file offset chunks).Pairwise fun token later =>
      token.span.stop.offset ≤ later.span.start.offset := by
  induction chunks generalizing offset with
  | nil => exact .nil
  | cons chunk chunks ih =>
      cases isKind : chunk.kind with
      | none =>
          rw [placed_cons_of_none isKind]
          exact ih _
      | some kind =>
          rw [placed_cons_of_some isKind]
          refine .cons (fun later member => ?_) (ih _)
          obtain ⟨start, stop, isSpan, -⟩ := mem_placed member
          rw [isSpan]
          exact Nat.le_add_right ..

end Chunk

/-- The number of bytes of a text is that of its characters. -/
theorem Text.utf8ByteSize_eq (text : String) : text.utf8ByteSize = byteLength text.toList := by
  have sameLength (chars : List Char) : (String.ofList chars).utf8ByteSize = byteLength chars := by
    induction chars with
    | nil => rfl
    | cons c chars ih =>
        rw [String.ofList_cons, String.utf8ByteSize_append, String.utf8ByteSize_singleton, ih,
          byteLength_cons]
  rw [← sameLength, String.ofList_toList]

/-- The part of a text where a stretch of it stands. -/
theorem Text.slice?_stretch {text : String} {before stretch after : List Char}
    (isText : text.toList = before ++ (stretch ++ after)) :
    slice? text (byteLength before) (byteLength before + byteLength stretch) =
      some (String.ofList stretch) := by
  rw [slice?, if_pos (Nat.le_add_right _ _), isText, cutAt?_append, Nat.add_sub_cancel_left]
  simp only [Option.bind_eq_bind, Option.bind_some, cutAt?_append]
  rfl

namespace Token

/-- Tokens stand in order: each covers something, and none begins before another one in
front of it ends. -/
structure InOrder (tokens : List Token) : Prop where
  nonempty : ∀ token ∈ tokens, token.span.start.offset < token.span.stop.offset
  apart : tokens.Pairwise fun token later => token.span.stop.offset ≤ later.span.start.offset

/-- The tokens of a file stand in order. -/
theorem inOrder_tokens (file : SourceFile) : InOrder (tokens file) := by
  obtain ⟨chunks, isText, cut⟩ := Chunk.exists_cut file.text.toList
  rw [Chunk.tokens_of_cut cut isText]
  refine ⟨fun token member => ?_, Chunk.pairwise_placed ..⟩
  obtain ⟨start, stop, isSpan, less, -⟩ := Chunk.mem_placed member
  rw [isSpan]
  exact Nat.add_lt_add_left less 0

/-- A span covers some characters of a file, and none of them in part. -/
def Covers (file : SourceFile) (span : Span) : Prop :=
  ∃ before covered after, file.text.toList = before ++ (covered ++ after) ∧ covered ≠ [] ∧
    span = file.span (Text.byteLength before) (Text.byteLength before + Text.byteLength covered)

/-- Between two offsets of a file there is nothing but trivia. -/
def IsGap (file : SourceFile) (start stop : Nat) : Prop :=
  ∃ before gap after, file.text.toList = before ++ (gap ++ after) ∧
    Text.byteLength before = start ∧ Text.byteLength before + Text.byteLength gap = stop ∧
      IsTrivia after gap

/-- Where the last of some tokens ends; at the beginning of the file if there is none. -/
def stopOf (passed : List Token) : Nat :=
  (passed.getLast?.map (·.span.stop.offset)).getD 0

/-- Behind some tokens of a file there is trivia, and then the chunk of the next token or the
end of the file. -/
theorem exists_gap {file : SourceFile} {passed later : List Token}
    (isSplit : tokens file = passed ++ later) :
    ∃ before gap rest, file.text.toList = before ++ (gap ++ rest) ∧
      Text.byteLength before = stopOf passed ∧ IsTrivia rest gap ∧
      (later = [] → rest = []) ∧
      ∀ token, later.head? = some token → ∃ chunk after, rest = chunk.text ++ after ∧
        chunk.kind = some token.kind ∧ Chunk.CutBefore after [chunk] ∧
        token.span = file.span (Text.byteLength (before ++ gap))
          (Text.byteLength (before ++ gap) + Text.byteLength chunk.text) := by
  obtain ⟨chunks, isText, cut⟩ := Chunk.exists_cut file.text.toList
  rw [Chunk.tokens_of_cut cut isText] at isSplit
  obtain ⟨front, behind, rfl, isPassed, isLater, ends⟩ := Chunk.placed_eq_append isSplit
  rw [Chunk.textOf_append] at isText
  rw [Nat.zero_add] at isLater
  obtain ⟨-, cutBehind⟩ := Chunk.cutBefore_append.mp cut
  have atStop : Text.byteLength (Chunk.textOf front) = stopOf passed := by
    unfold stopOf
    cases isLast : passed.getLast? with
    | none =>
        obtain rfl := List.getLast?_eq_none_iff.mp isLast
        cases front with
        | nil => rfl
        | cons chunk front =>
            have some := ends _ (List.getLast?_eq_some_getLast (List.cons_ne_nil chunk front))
            have member := List.getLast_mem (List.cons_ne_nil chunk front)
            have noKinds := Chunk.map_kind_placed file 0 (chunk :: front)
            rw [isPassed, List.map_nil, Chunk.kindsOf, eq_comm,
              List.filterMap_eq_nil_iff] at noKinds
            rw [noKinds _ member] at some
            cases some
    | some last =>
        rw [← isPassed] at isLast
        rw [Option.map_some, Option.getD_some, Chunk.stop_of_getLast? isLast ends, Nat.zero_add]
  cases later with
  | nil =>
      have noKinds := Chunk.map_kind_placed file (Text.byteLength (Chunk.textOf front)) behind
      rw [isLater, List.map_nil] at noKinds
      exact ⟨Chunk.textOf front, Chunk.textOf behind, [], by rw [List.append_nil, isText], atStop,
        Chunk.isTrivia_of_cut cutBehind noKinds.symm, fun _ => rfl, by rintro _ ⟨⟩⟩
  | cons token later =>
      obtain ⟨trivia, chunk, others, rfl, noTokens, isKind, isSpan, -⟩ :=
        Chunk.placed_eq_cons isLater
      obtain ⟨cutTrivia, cutOthers⟩ := Chunk.cutBefore_append.mp cutBehind
      have cutFirst : Chunk.CutBefore [] ([chunk] ++ others) := cutOthers
      obtain ⟨cutChunk, -⟩ := Chunk.cutBefore_append.mp cutFirst
      rw [List.append_nil] at cutChunk
      rw [Chunk.textOf_append] at isText
      rw [List.append_nil] at cutTrivia
      refine ⟨Chunk.textOf front, Chunk.textOf trivia, Chunk.textOf (chunk :: others), isText.symm,
        atStop, Chunk.isTrivia_of_cut cutTrivia noTokens, by rintro ⟨⟩, ?_⟩
      rintro _ ⟨⟩
      refine ⟨chunk, Chunk.textOf others, rfl, isKind, cutChunk, ?_⟩
      rw [isSpan, Text.byteLength_append]

/-- What a reader of a file sees on its way: the tokens with their places, and in the end
nothing, at the empty place where the file ends. -/
def stream (file : SourceFile) : List (Option TokenKind × Span) :=
  (tokens file).map (fun token => (some token.kind, token.span)) ++
    [(none, file.span file.size file.size)]

/-- A place of the stream is that of the token behind those which have been seen, or the end
of the file behind all of them. -/
private theorem exists_passed {file : SourceFile} {before behind : List (Option TokenKind × Span)}
    {item : Option TokenKind × Span} (isStream : stream file = before ++ item :: behind) :
    ∃ passed later, tokens file = passed ++ later ∧ before.getLast?.map (·.2.stop.offset) =
        passed.getLast?.map (·.span.stop.offset) ∧
      item.2 = (later.head?.map (·.span)).getD (file.span file.size file.size) := by
  rcases List.eq_nil_or_concat behind with rfl | ⟨front, last, rfl⟩
  · obtain ⟨rfl, isItem⟩ := List.append_inj' isStream rfl
    obtain rfl := List.singleton_inj.mp isItem
    exact ⟨tokens file, [], (List.append_nil _).symm, by simp [Function.comp_def], rfl⟩
  · rw [List.concat_eq_append, ← List.cons_append, ← List.append_assoc] at isStream
    obtain ⟨isTokens, -⟩ := List.append_inj' isStream rfl
    obtain ⟨passed, later, isSplit, rfl, isLater⟩ := List.map_eq_append_iff.mp isTokens
    obtain ⟨token, later, rfl, rfl, -⟩ := List.map_eq_cons_iff.mp isLater
    exact ⟨passed, token :: later, isSplit, by simp [Function.comp_def], rfl⟩

/-- Every token covers characters of its file. -/
theorem covers_of_mem {file : SourceFile} {token : Token} (member : token ∈ tokens file) :
    Covers file token.span := by
  obtain ⟨passed, later, isSplit⟩ := List.append_of_mem member
  obtain ⟨before, gap, rest, isText, -, -, -, next⟩ := exists_gap isSplit
  obtain ⟨chunk, after, rfl, -, -, isSpan⟩ := next token rfl
  exact ⟨before ++ gap, chunk.text, after, by rw [isText, List.append_assoc], List.cons_ne_nil _ _,
    isSpan⟩

/-- An identifier is written as its name, possibly behind an at sign. -/
theorem slice?_of_ident {file : SourceFile} {token : Token} {name : String}
    (member : token ∈ tokens file) (isIdent : token.kind = .ident name) :
    file.slice? token.span = some name ∨ file.slice? token.span = some ("@" ++ name) := by
  obtain ⟨passed, later, isSplit⟩ := List.append_of_mem member
  obtain ⟨before, gap, rest, isText, -, -, -, next⟩ := exists_gap isSplit
  obtain ⟨chunk, after, rfl, isKind, cut, isSpan⟩ := next token rfl
  have slice : file.slice? token.span = some (String.ofList chunk.text) := by
    rw [← List.append_assoc] at isText
    rw [isSpan]
    exact Text.slice?_stretch isText
  obtain _ | ⟨read, covers, -⟩ := cut
  rw [Chunk.textOf_nil, List.nil_append] at read covers
  obtain ⟨spelled, -⟩ :=
    Lexeme.ident_spelling (read.trans (isKind.trans (congrArg some isIdent))) covers
  rw [slice]
  rcases spelled with isName | ⟨isAt, isName⟩
  · left
    rw [Chunk.text, isName, String.ofList_toList]
  · right
    rw [Chunk.text, isAt, isName, String.ofList_cons, String.ofList_toList]
    rfl

/-- What is covered lies in the file. -/
theorem Covers.stop_le {file : SourceFile} {span : Span} (covers : Covers file span) :
    span.stop.offset ≤ file.size := by
  obtain ⟨before, covered, after, isText, -, rfl⟩ := covers
  rw [SourceFile.size, Text.utf8ByteSize_eq, isText, Text.byteLength_append, Text.byteLength_append,
    SourceFile.span, SourceFile.position_offset]
  omega

/-- The sights of a stream follow each other without an overlap. -/
private theorem pairwise_stream (file : SourceFile) :
    (stream file).Pairwise fun item later =>
      item.2.start.offset < later.2.start.offset ∧ item.2.stop.offset ≤ later.2.start.offset := by
  obtain ⟨nonempty, apart⟩ := inOrder_tokens file
  refine List.pairwise_append.mpr ⟨List.pairwise_map.mpr ?_, List.pairwise_singleton _ _, ?_⟩
  · exact apart.imp_of_mem fun member _ less => ⟨(nonempty _ member).trans_le less, less⟩
  · rintro _ member _ (_ | ⟨_, ⟨⟩⟩)
    obtain ⟨token, isToken, rfl⟩ := List.mem_map.mp member
    have within := (covers_of_mem isToken).stop_le
    exact ⟨(nonempty _ isToken).trans_le within, within⟩

/-- Reading a file loses and repeats nothing.  The stream ends with the sight of the end,
which is seen nowhere else; all that is seen before covers characters of the file, each
behind the last; and what is left between, in front and behind is trivia. -/
theorem stream_covers (file : SourceFile) :
    (∃ seen, stream file = seen ++ [(none, file.span file.size file.size)] ∧
      ∀ item ∈ seen, item.1.isSome = true ∧ Covers file item.2) ∧
    ((stream file).Pairwise fun item later =>
      item.2.start.offset < later.2.start.offset ∧ item.2.stop.offset ≤ later.2.start.offset) ∧
    ∀ before item behind, stream file = before ++ item :: behind →
      IsGap file ((before.getLast?.map (·.2.stop.offset)).getD 0) item.2.start.offset := by
  refine ⟨⟨_, rfl, fun item member => ?_⟩, pairwise_stream file,
    fun before item behind isStream => ?_⟩
  · obtain ⟨token, isToken, rfl⟩ := List.mem_map.mp member
    exact ⟨rfl, covers_of_mem isToken⟩
  · obtain ⟨passed, later, isSplit, sameStop, isItem⟩ := exists_passed isStream
    obtain ⟨before, gap, rest, isText, atStop, isTrivia, atEnd, next⟩ := exists_gap isSplit
    rw [sameStop]
    refine ⟨before, gap, rest, isText, atStop, ?_, isTrivia⟩
    cases later with
    | nil =>
        obtain rfl := atEnd rfl
        rw [isItem, ← Text.byteLength_append, ← List.append_nil gap, ← isText,
          ← Text.utf8ByteSize_eq]
        rfl
    | cons token later =>
        obtain ⟨chunk, after, -, -, -, isSpan⟩ := next token rfl
        rw [isItem, ← Text.byteLength_append]
        exact congrArg (·.start.offset) isSpan.symm

end Token

end ErrorAccessors
