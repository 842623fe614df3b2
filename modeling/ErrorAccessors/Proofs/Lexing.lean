/-
# Cutting text into lexemes

Reading a text takes one lexeme after another from its front.  A chunk is such
a lexeme together with the characters that it covers, so that a text is nothing
but the texts of its chunks, and its tokens are the chunks that are no trivia,
each at its place.

How far a lexeme extends may depend on what stands behind it.  Whether a text is
cut into given chunks is therefore said in front of a given rest, and two
stretches of chunks may be joined when the first is cut in front of the second.
-/

import ErrorAccessors.Proofs.Rereading
import ErrorAccessors.Token.Lexer

namespace ErrorAccessors

/-- A lexeme with the characters that it covers, at least one. -/
structure Chunk where
  first : Char
  more : List Char
  kind : Option TokenKind

namespace Chunk

/-- The characters of a chunk. -/
def text (chunk : Chunk) : List Char := chunk.first :: chunk.more

/-- The characters of some chunks. -/
def textOf (chunks : List Chunk) : List Char := chunks.flatMap text

/-- The kinds of the tokens among some chunks. -/
def kindsOf (chunks : List Chunk) : List TokenKind := chunks.filterMap (·.kind)

@[simp] theorem textOf_nil : textOf [] = [] := rfl

@[simp] theorem textOf_cons (chunk : Chunk) (chunks : List Chunk) :
    textOf (chunk :: chunks) = chunk.first :: (chunk.more ++ textOf chunks) := rfl

@[simp] theorem textOf_append (first second : List Chunk) :
    textOf (first ++ second) = textOf first ++ textOf second :=
  List.flatMap_append

@[simp] theorem kindsOf_nil : kindsOf [] = [] := rfl

@[simp] theorem kindsOf_append (first second : List Chunk) :
    kindsOf (first ++ second) = kindsOf first ++ kindsOf second :=
  List.filterMap_append

/-- The tokens among some chunks that stand at an offset of a file. -/
def placed (file : SourceFile) (offset : Nat) : List Chunk → List Token
  | [] => []
  | chunk :: chunks =>
    let stop := offset + Text.byteLength chunk.text
    match chunk.kind with
    | none => placed file stop chunks
    | some kind => ⟨kind, file.span offset stop⟩ :: placed file stop chunks

@[simp] theorem placed_nil (file : SourceFile) (offset : Nat) : placed file offset [] = [] := rfl

/-- Trivia is no token. -/
theorem placed_cons_of_none {chunk : Chunk} (trivia : chunk.kind = none) (file : SourceFile)
    (offset : Nat) (chunks : List Chunk) :
    placed file offset (chunk :: chunks) =
      placed file (offset + Text.byteLength chunk.text) chunks := by
  simp only [placed, trivia]

/-- A chunk that is no trivia is a token at its place. -/
theorem placed_cons_of_some {chunk : Chunk} {kind : TokenKind} (isToken : chunk.kind = some kind)
    (file : SourceFile) (offset : Nat) (chunks : List Chunk) :
    placed file offset (chunk :: chunks) =
      ⟨kind, file.span offset (offset + Text.byteLength chunk.text)⟩ ::
        placed file (offset + Text.byteLength chunk.text) chunks := by
  simp only [placed, isToken]

theorem placed_append (file : SourceFile) (offset : Nat) (first second : List Chunk) :
    placed file offset (first ++ second) =
      placed file offset first ++
        placed file (offset + Text.byteLength (textOf first)) second := by
  induction first generalizing offset with
  | nil => rfl
  | cons chunk chunks ih =>
      have bytes : offset + Text.byteLength (textOf (chunk :: chunks)) =
          offset + Text.byteLength chunk.text + Text.byteLength (textOf chunks) := by
        simp [text, Nat.add_assoc]
      rw [bytes, List.cons_append]
      cases isKind : chunk.kind with
      | none => rw [placed_cons_of_none isKind, placed_cons_of_none isKind, ih]
      | some kind =>
          rw [placed_cons_of_some isKind, placed_cons_of_some isKind, ih, List.cons_append]

/-- The kinds of tokens do not depend on where they stand. -/
theorem map_kind_placed (file : SourceFile) (offset : Nat) (chunks : List Chunk) :
    (placed file offset chunks).map (·.kind) = kindsOf chunks := by
  induction chunks generalizing offset with
  | nil => rfl
  | cons chunk chunks ih =>
      cases isKind : chunk.kind with
      | none =>
          rw [placed_cons_of_none isKind, ih, kindsOf, kindsOf, List.filterMap_cons_none isKind]
      | some kind =>
          rw [placed_cons_of_some isKind, List.map_cons, ih, kindsOf, kindsOf,
            List.filterMap_cons_some isKind]

/-- In front of a rest, the text of some chunks is cut into exactly these. -/
inductive CutBefore (rest : List Char) : List Chunk → Prop
  | nil : CutBefore rest []
  | cons {chunk : Chunk} {chunks : List Chunk}
      (kind : (Lexeme.first chunk.first (chunk.more ++ (textOf chunks ++ rest))).kind = chunk.kind)
      (more : (chunk.more ++ (textOf chunks ++ rest)).take
        (Lexeme.first chunk.first (chunk.more ++ (textOf chunks ++ rest))).more = chunk.more)
      (behind : CutBefore rest chunks) : CutBefore rest (chunk :: chunks)

/-- Two stretches are cut one behind the other. -/
theorem cutBefore_append {rest : List Char} {first second : List Chunk} :
    CutBefore rest (first ++ second) ↔
      CutBefore (textOf second ++ rest) first ∧ CutBefore rest second := by
  induction first with
  | nil => exact ⟨fun behind => ⟨.nil, behind⟩, And.right⟩
  | cons chunk chunks ih =>
      have tail : textOf (chunks ++ second) ++ rest = textOf chunks ++ (textOf second ++ rest) := by
        rw [textOf_append, List.append_assoc]
      rw [List.cons_append]
      constructor
      · intro cut
        obtain _ | ⟨kind, more, behind⟩ := cut
        rw [tail] at kind more
        obtain ⟨front, behind⟩ := ih.mp behind
        exact ⟨.cons kind more front, behind⟩
      · rintro ⟨_ | ⟨kind, more, front⟩, behind⟩
        rw [← tail] at kind more
        exact .cons kind more (ih.mpr ⟨front, behind⟩)

/-- Every text is cut into chunks. -/
theorem exists_cut (text : List Char) : ∃ chunks, textOf chunks = text ∧ CutBefore [] chunks := by
  induction length : text.length using Nat.strongRecOn generalizing text with
  | ind size ih =>
  cases text with
  | nil => exact ⟨[], rfl, .nil⟩
  | cons c rest =>
      let lexeme := Lexeme.first c rest
      have less : (rest.drop lexeme.more).length < size := by
        rw [List.length_drop, ← length, List.length_cons]
        omega
      obtain ⟨chunks, isText, cut⟩ := ih _ less (rest.drop lexeme.more) rfl
      have whole : rest.take lexeme.more ++ (textOf chunks ++ []) = rest := by
        rw [List.append_nil, isText, List.take_append_drop]
      refine ⟨⟨c, rest.take lexeme.more, lexeme.kind⟩ :: chunks, ?_, .cons ?_ ?_ cut⟩
      · rw [textOf_cons, isText, List.take_append_drop]
      · rw [whole]
      · rw [whole]

/-- The tokens of a text that begins with some chunks. -/
theorem tokensFrom_of_cut {rest : List Char} {chunks : List Chunk} (cut : CutBefore rest chunks)
    (file : SourceFile) (offset : Nat) :
    Token.tokensFrom file offset (textOf chunks ++ rest) =
      placed file offset chunks ++
        Token.tokensFrom file (offset + Text.byteLength (textOf chunks)) rest := by
  induction cut generalizing offset with
  | nil => rfl
  | @cons chunk chunks kind more behind ih =>
      have bytes : offset + Text.byteLength (textOf (chunk :: chunks)) =
          offset + Text.byteLength chunk.text + Text.byteLength (textOf chunks) := by
        simp [text, Nat.add_assoc]
      have left : (chunk.more ++ (textOf chunks ++ rest)).drop
          (Lexeme.first chunk.first (chunk.more ++ (textOf chunks ++ rest))).more =
            textOf chunks ++ rest := by
        have whole := List.take_append_drop
          (Lexeme.first chunk.first (chunk.more ++ (textOf chunks ++ rest))).more
          (chunk.more ++ (textOf chunks ++ rest))
        rw [more] at whole
        exact List.append_cancel_left whole
      rw [bytes, textOf_cons, List.cons_append, List.append_assoc, Token.tokensFrom]
      simp only [kind, more, left]
      have later := ih (offset + Text.byteLength chunk.text)
      simp only [text] at later ⊢
      rw [later]
      cases isKind : chunk.kind with
      | none => rw [placed_cons_of_none isKind, text]
      | some kind => rw [placed_cons_of_some isKind, text, List.cons_append]

/-- The tokens of a file are those of its chunks. -/
theorem tokens_of_cut {chunks : List Chunk} {file : SourceFile} (cut : CutBefore [] chunks)
    (isText : textOf chunks = file.text.toList) : Token.tokens file = placed file 0 chunks := by
  have whole := tokensFrom_of_cut cut file 0
  have nothing (offset : Nat) : Token.tokensFrom file offset [] = [] := by
    rw [Token.tokensFrom]
  rw [Token.tokens, ← isText, ← List.append_nil (textOf chunks), whole, nothing, List.append_nil]

section Places

variable {file : SourceFile} {offset : Nat} {chunks : List Chunk}

/-- The first token is that of the first chunk which is no trivia. -/
theorem placed_eq_cons {token : Token} {tokens : List Token}
    (tokensAre : placed file offset chunks = token :: tokens) :
    ∃ trivia chunk others, chunks = trivia ++ chunk :: others ∧ kindsOf trivia = [] ∧
      chunk.kind = some token.kind ∧
      token.span = file.span (offset + Text.byteLength (textOf trivia))
        (offset + Text.byteLength (textOf trivia) + Text.byteLength chunk.text) ∧
      placed file (offset + Text.byteLength (textOf trivia) + Text.byteLength chunk.text) others =
        tokens := by
  induction chunks generalizing offset with
  | nil => cases tokensAre
  | cons chunk chunks ih =>
      cases isKind : chunk.kind with
      | some kind =>
          rw [placed_cons_of_some isKind] at tokensAre
          obtain ⟨rfl, rfl⟩ := List.cons.inj tokensAre
          exact ⟨[], chunk, chunks, rfl, rfl, isKind, rfl, rfl⟩
      | none =>
          rw [placed_cons_of_none isKind] at tokensAre
          obtain ⟨trivia, found, others, rfl, isTrivia, kind, span, rest⟩ := ih tokensAre
          have bytes : offset + Text.byteLength (textOf (chunk :: trivia)) =
              offset + Text.byteLength chunk.text + Text.byteLength (textOf trivia) := by
            simp [text, Nat.add_assoc]
          refine ⟨chunk :: trivia, found, others, rfl, ?_, kind, ?_, ?_⟩
          · rw [kindsOf, List.filterMap_cons_none isKind]
            exact isTrivia
          · rw [bytes]
            exact span
          · rw [bytes]
            exact rest

/-- A stretch of tokens that comes first is that of the first chunks, up to the
last of these tokens. -/
theorem placed_eq_append {first second : List Token}
    (tokensAre : placed file offset chunks = first ++ second) :
    ∃ front behind, chunks = front ++ behind ∧ placed file offset front = first ∧
      placed file (offset + Text.byteLength (textOf front)) behind = second ∧
      ∀ last, front.getLast? = some last → last.kind.isSome = true := by
  induction first generalizing offset chunks with
  | nil => exact ⟨[], chunks, rfl, rfl, tokensAre, nofun⟩
  | cons token tokens ih =>
      obtain ⟨trivia, chunk, others, rfl, isTrivia, kind, span, rest⟩ := placed_eq_cons tokensAre
      obtain ⟨front, behind, rfl, frontIs, behindIs, ends⟩ := ih rest
      have noToken : placed file offset trivia = [] := by
        rw [← List.map_eq_nil_iff (f := Token.kind), map_kind_placed, isTrivia]
      have bytes : offset + Text.byteLength (textOf (trivia ++ chunk :: front)) =
          offset + Text.byteLength (textOf trivia) + Text.byteLength chunk.text +
            Text.byteLength (textOf front) := by
        simp [text, Nat.add_assoc]
      refine ⟨trivia ++ chunk :: front, behind, by simp, ?_, ?_, ?_⟩
      · rw [placed_append, noToken, List.nil_append, placed_cons_of_some kind, frontIs, ← span]
      · rw [bytes]
        exact behindIs
      · intro last isLast
        rw [List.getLast?_append, List.getLast?_cons] at isLast
        cases frontLast : front.getLast? with
        | none =>
            obtain rfl : chunk = last := by simpa [frontLast] using isLast
            simp [kind]
        | some other =>
            obtain rfl : other = last := by simpa [frontLast] using isLast
            exact ends _ frontLast

/-- Where the tokens of some chunks stand. -/
theorem mem_placed {token : Token} (member : token ∈ placed file offset chunks) :
    ∃ start stop, token.span = file.span (offset + start) (offset + stop) ∧
      start < stop ∧ stop ≤ Text.byteLength (textOf chunks) := by
  induction chunks generalizing offset with
  | nil => cases member
  | cons chunk chunks ih =>
      have positive : 0 < Text.byteLength chunk.text := by
        have := chunk.first.utf8Size_pos
        rw [text, Text.byteLength_cons]
        omega
      have bytes : Text.byteLength (textOf (chunk :: chunks)) =
          Text.byteLength chunk.text + Text.byteLength (textOf chunks) := by
        simp [text, Nat.add_assoc]
      have later (member : token ∈ placed file (offset + Text.byteLength chunk.text) chunks) :
          ∃ start stop, token.span = file.span (offset + start) (offset + stop) ∧
            start < stop ∧ stop ≤ Text.byteLength (textOf (chunk :: chunks)) := by
        obtain ⟨start, stop, span, less, within⟩ := ih member
        refine ⟨Text.byteLength chunk.text + start, Text.byteLength chunk.text + stop, ?_, ?_, ?_⟩
        · rw [span, Nat.add_assoc, Nat.add_assoc]
        · omega
        · omega
      cases isKind : chunk.kind with
      | none =>
          rw [placed_cons_of_none isKind] at member
          exact later member
      | some kind =>
          rw [placed_cons_of_some isKind] at member
          rcases List.mem_cons.mp member with rfl | member
          · exact ⟨0, Text.byteLength chunk.text, rfl, positive, by omega⟩
          · exact later member

end Places

end Chunk

end ErrorAccessors
