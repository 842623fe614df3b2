/-
# Text that is written piece by piece

A stretch of text writes some token kinds if it is cut into chunks of these kinds in
front of anything that does not continue a word.  Text is put together from words,
marks, literals and white space.  Each lemma adds one of them in front of a text that
writes some tokens, and says which tokens are written then.  A mark that may be the
first half of another one stands in front of a blank.
-/

import ErrorAccessors.Proofs.LexemeForms

namespace ErrorAccessors

/-- A text is not continued by another one: no word goes on from the one to the other. -/
def Lexeme.Apart (text rest : List Char) : Prop :=
  ∀ c ∈ text.getLast?, Lexeme.continuesWord c = true →
    ∀ d ∈ rest.head?, Lexeme.continuesWord d = false

/-- A text is cut into chunks of some token kinds in front of anything that does not
continue it. -/
def Writes (text : List Char) (kinds : List TokenKind) : Prop :=
  ∃ chunks, Chunk.textOf chunks = text ∧ Chunk.kindsOf chunks = kinds ∧
    ∀ rest : List Char, Lexeme.Apart text rest → Chunk.CutBefore rest chunks

namespace Lexeme.Apart

variable {text more rest : List Char}

theorem tail {c : Char} (apart : Apart (c :: text) rest) : Apart text rest := by
  intro d isLast
  refine apart d ?_
  rw [List.getLast?_cons, isLast]
  rfl

theorem of_head (ends : ∀ d ∈ rest.head?, continuesWord d = false) : Apart text rest :=
  fun _ _ _ => ends

theorem of_append (apart : Apart (text ++ more) rest) : Apart more rest := by
  intro d isLast
  refine apart d ?_
  rw [List.getLast?_append, isLast]
  rfl

/-- What a text is apart from in front of another one. -/
theorem append (first : ∀ d ∈ more.head?, continuesWord d = false)
    (apart : Apart (text ++ more) rest) : Apart text (more ++ rest) := by
  cases more with
  | nil =>
      rw [List.append_nil] at apart
      exact apart
  | cons d more => exact .of_head first

end Lexeme.Apart

namespace Writes

open Lexeme

variable {text more : List Char} {kinds others : List TokenKind}

theorem nothing : Writes [] [] :=
  ⟨[], rfl, rfl, fun _ _ => .nil⟩

/-- A word writes an identifier. -/
theorem word (isWord : IsWord text) : Writes text [.ident (String.ofList text)] := by
  have goesOn := isWord.continues
  obtain ⟨c, tail, rfl, begins, continues⟩ := isWord
  refine ⟨[⟨c, tail, some (.ident (String.ofList (c :: tail)))⟩], by simp, rfl,
    fun rest apart => ?_⟩
  have ends := apart _ (List.getLast?_eq_some_getLast (List.cons_ne_nil c tail))
    (goesOn _ (List.getLast_mem _))
  have read := first_of_word ⟨c, tail, rfl, begins, continues⟩ ends
  refine .cons ?_ ?_ .nil
  · rw [Chunk.textOf_nil, List.nil_append, read]
    rfl
  · rw [Chunk.textOf_nil, List.nil_append, read]
    exact List.take_left

/-- A mark of one character in front of what writes anything. -/
theorem behind_mark {c : Char} {mark : Mark} (alone : single? c = some (.mark mark))
    (noPair : c ≠ ':' ∧ c ≠ '=') (writes : Writes text kinds) :
    Writes (c :: text) (.mark mark :: kinds) := by
  obtain ⟨chunks, rfl, rfl, cut⟩ := writes
  refine ⟨⟨c, [], some (.mark mark)⟩ :: chunks, rfl, rfl, fun rest apart => ?_⟩
  have read := first_of_mark alone noPair (Chunk.textOf chunks ++ rest)
  apply Chunk.CutBefore.cons
  · rw [List.nil_append, read]
    rfl
  · rw [List.nil_append, read]
    rfl
  · exact cut rest apart.tail

/-- A mark of one character. -/
theorem mark {c : Char} {mark : Mark} (alone : single? c = some (.mark mark))
    (noPair : c ≠ ':' ∧ c ≠ '=') : Writes [c] [.mark mark] :=
  behind_mark alone noPair nothing

/-- Two colons in front of what writes anything. -/
theorem behind_colons (writes : Writes text kinds) :
    Writes (':' :: ':' :: text) (.mark .doubleColon :: kinds) := by
  obtain ⟨chunks, rfl, rfl, cut⟩ := writes
  refine ⟨⟨':', [':'], some (.mark .doubleColon)⟩ :: chunks, rfl, rfl, fun rest apart => ?_⟩
  exact .cons rfl rfl (cut rest apart.tail.tail)

/-- A blank in front of what writes anything. -/
theorem behind_blank (writes : Writes text kinds) : Writes (' ' :: text) kinds := by
  obtain ⟨chunks, rfl, rfl, cut⟩ := writes
  refine ⟨⟨' ', [], none⟩ :: chunks, rfl, rfl, fun rest apart => ?_⟩
  exact .cons rfl rfl (cut rest apart.tail)

/-- What is written one behind the other, where the second text does not continue
a word. -/
theorem append (first : Writes text kinds) (second : Writes more others)
    (apart : ∀ d ∈ more.head?, continuesWord d = false) :
    Writes (text ++ more) (kinds ++ others) := by
  obtain ⟨chunks, rfl, rfl, cut⟩ := first
  obtain ⟨behind, rfl, rfl, cutBehind⟩ := second
  refine ⟨chunks ++ behind, Chunk.textOf_append .., Chunk.kindsOf_append .., fun rest ends => ?_⟩
  exact Chunk.cutBefore_append.mpr ⟨cut _ (.append apart ends), cutBehind rest ends.of_append⟩

/-- A line end in front of what writes anything. -/
theorem behind_lineEnd (writes : Writes text kinds) : Writes ('\n' :: text) kinds := by
  obtain ⟨chunks, rfl, rfl, cut⟩ := writes
  refine ⟨⟨'\n', [], none⟩ :: chunks, rfl, rfl, fun rest apart => ?_⟩
  exact .cons rfl rfl (cut rest apart.tail)

/-- A word in front of what writes anything and does not continue it. -/
theorem behind_word {word : String} (isWord : IsWord word.toList) {c : Char}
    (ends : continuesWord c = false) (writes : Writes (c :: text) kinds) :
    Writes (word.toList ++ c :: text) (.ident word :: kinds) := by
  have written := (Writes.word isWord).append writes fun d isHead => by
    obtain rfl := Option.some.inj isHead
    exact ends
  rwa [String.ofList_toList] at written

/-- A colon and a blank in front of what writes anything. -/
theorem behind_colon (writes : Writes text kinds) :
    Writes (':' :: ' ' :: text) (.mark .colon :: kinds) := by
  obtain ⟨chunks, rfl, rfl, cut⟩ := writes
  refine ⟨⟨':', [], some (.mark .colon)⟩ :: ⟨' ', [], none⟩ :: chunks, rfl, rfl,
    fun rest apart => ?_⟩
  exact .cons rfl rfl (.cons rfl rfl (cut rest apart.tail.tail))

/-- An equals sign and a blank in front of what writes anything. -/
theorem behind_equals (writes : Writes text kinds) :
    Writes ('=' :: ' ' :: text) (.mark .equals :: kinds) := by
  obtain ⟨chunks, rfl, rfl, cut⟩ := writes
  refine ⟨⟨'=', [], some (.mark .equals)⟩ :: ⟨' ', [], none⟩ :: chunks, rfl, rfl,
    fun rest apart => ?_⟩
  exact .cons rfl rfl (.cons rfl rfl (cut rest apart.tail.tail))

/-- An arrow in front of what writes anything. -/
theorem behind_arrow (writes : Writes text kinds) :
    Writes ('=' :: '>' :: text) (.mark .arrow :: kinds) := by
  obtain ⟨chunks, rfl, rfl, cut⟩ := writes
  refine ⟨⟨'=', ['>'], some (.mark .arrow)⟩ :: chunks, rfl, rfl, fun rest apart => ?_⟩
  exact .cons rfl rfl (cut rest apart.tail.tail)

/-- The tokens of a text are of the kinds that it writes. -/
theorem map_kind_tokens {text : String} {kinds : List TokenKind} (writes : Writes text.toList kinds)
    (path : String) : (Token.tokens (.ofText path text)).map (·.kind) = kinds := by
  obtain ⟨chunks, isText, kindsAre, cut⟩ := writes
  rw [Chunk.tokens_of_cut (cut [] (.of_head nofun)) isText, Chunk.map_kind_placed, kindsAre]

end Writes

end ErrorAccessors
