/-
# Text that the layout keeps

The layout takes white space out of code.  A stretch of text is neat if it stands on one
line, white space is at neither end of it, and the layout leaves all its characters as
they are, whatever is behind it.  Characters that neither are white space nor open a
literal or a comment are neat, and so are neat stretches one behind the other or with a
blank between them, and whole string literals.

Code that is written neatly is both: it writes some tokens, and the layout keeps it.
-/

import ErrorAccessors.Layout
import ErrorAccessors.Proofs.CharacterRanges
import ErrorAccessors.Proofs.WrittenText

namespace ErrorAccessors

namespace Lexeme

variable {c : Char} {sign : Mark}

/-- The characters that are marks by themselves. -/
private def markChars : List Char :=
  ['\x7b', '\x7d', '(', ')', '[', ']', '<', '>', ',', ';', ':', '.', '=', '?', '*', '~', '-']

private theorem mem_markChars (alone : single? c = some (.mark sign)) : c ∈ markChars := by
  unfold single? at alone
  split at alone
  all_goals first | decide | cases alone

/-- A mark does not continue a word. -/
theorem notWord_of_single (alone : single? c = some (.mark sign)) : continuesWord c = false := by
  have marks : markChars.all (!continuesWord ·) = true := by decide
  simpa using List.all_eq_true.mp marks c (mem_markChars alone)

end Lexeme

namespace Layout

/-- A character of code that begins neither a literal nor a comment. -/
def isSolid (c : Char) : Bool :=
  !Unicode.isSpace c && !(['/', '@', '"', '\''] : List Char).contains c

/-- A line that the layout keeps. -/
structure IsTidy (line : List Char) : Prop where
  begins : ∃ c more, line = c :: more ∧ Unicode.isSpace c = false
  ends : ∃ before c, line = before ++ [c] ∧ Unicode.isSpace c = false
  noLineEnd : '\n' ∉ line
  kept : shrinkAfter false (Region.mark .code line) = line

namespace IsTidy

variable {line : List Char}

theorem ne_nil (isTidy : IsTidy line) : line ≠ [] := by
  obtain ⟨c, more, rfl, -⟩ := isTidy.begins
  exact List.cons_ne_nil c more

/-- There is no white space around a tidy line. -/
theorem trim_eq (isTidy : IsTidy line) : Unicode.trim line = line := by
  obtain ⟨c, more, isLine, noSpace⟩ := isTidy.begins
  obtain ⟨before, d, isEnd, noSpaceLast⟩ := isTidy.ends
  have left : Unicode.trimLeft line = line := by
    rw [Unicode.trimLeft, isLine, List.dropWhile_cons_of_neg (by simp [noSpace])]
  have right : Unicode.trimRight line = line := by
    rw [Unicode.trimRight, isEnd, List.reverse_concat,
      List.dropWhile_cons_of_neg (by simp [noSpaceLast]), List.reverse_cons, List.reverse_reverse]
  rw [Unicode.trim, left, right]

theorem tidy_eq (isTidy : IsTidy line) : tidy line = line := by
  rw [tidy, isTidy.trim_eq, isTidy.kept]

end IsTidy

/-- A stretch of a line that the layout keeps. -/
structure Neat (text : List Char) : Prop where
  begins : ∃ c more, text = c :: more ∧ Unicode.isSpace c = false
  ends : ∃ before c, text = before ++ [c] ∧ Unicode.isSpace c = false
  noLineEnd : '\n' ∉ text
  kept : ∀ afterSpace rest, shrinkAfter afterSpace (Region.mark .code (text ++ rest)) =
    text ++ shrinkAfter false (Region.mark .code rest)

section Characters

variable {c : Char}

theorem isSpace_of_isSolid (solid : isSolid c = true) : Unicode.isSpace c = false := by
  simp only [isSolid, Bool.and_eq_true, Bool.not_eq_true'] at solid
  exact solid.1

theorem shrinkAfter_cons (afterSpace : Bool) (c : Char) (region : Region)
    (rest : List (Char × Region)) :
    shrinkAfter afterSpace ((c, region) :: rest) =
      if region = .code ∧ Unicode.isSpace c = true then
        if afterSpace then shrinkAfter true rest else ' ' :: shrinkAfter true rest
      else c :: shrinkAfter (c == ' ') rest :=
  rfl

/-- A character that is no white space is kept. -/
theorem shrinkAfter_of_noSpace (noSpace : Unicode.isSpace c = false) (afterSpace : Bool)
    (region : Region) (rest : List (Char × Region)) :
    shrinkAfter afterSpace ((c, region) :: rest) = c :: shrinkAfter false rest := by
  have noBlank : (c == ' ') = false := by
    rw [beq_eq_false_iff_ne]
    rintro rfl
    exact absurd noSpace (by decide)
  simp [shrinkAfter_cons, noSpace, noBlank]

/-- A blank in code belongs to the code. -/
theorem mark_blank (rest : List Char) :
    Region.mark .code (' ' :: rest) = (' ', .code) :: Region.mark .code rest :=
  rfl

/-- A solid character belongs to the code. -/
theorem mark_of_isSolid (solid : isSolid c = true) (rest : List Char) :
    Region.mark .code (c :: rest) = (c, .code) :: Region.mark .code rest := by
  simp only [isSolid, Bool.and_eq_true, Bool.not_eq_true', List.contains_eq_mem, List.mem_cons,
    List.not_mem_nil, or_false, decide_eq_false_iff_not, not_or] at solid
  obtain ⟨-, noSlash, noAt, noQuote, noApostrophe⟩ := solid
  rw [Region.mark]
  · exact fun _ slash => absurd slash noSlash
  · exact fun _ isAt => absurd isAt noAt
  · exact noQuote
  · exact noApostrophe

/-- A word is solid. -/
theorem isSolid_of_continuesWord (continues : Lexeme.continuesWord c = true) :
    isSolid c = true := by
  have others : [' ', '/', '@', '"', '\''].all (!Lexeme.continuesWord ·) = true := by
    decide
  have noSpace : Unicode.isSpace c = false := by
    by_cases space : Unicode.isSpace c = true
    · obtain ⟨noLetter, noNumber, -⟩ := Unicode.notName_of_isSpace space
      simp only [Lexeme.continuesWord, noLetter, noNumber, Bool.or_false, decide_eq_true_eq]
        at continues
      exact absurd (continues ▸ space) (by decide)
    · exact Bool.eq_false_iff.mpr space
  simp only [isSolid, noSpace, Bool.not_false, Bool.true_and, Bool.not_eq_true',
    List.contains_eq_mem, decide_eq_false_iff_not]
  intro member
  have other := List.all_eq_true.mp others c (List.mem_cons_of_mem _ member)
  rw [continues] at other
  cases other

end Characters

namespace Neat

variable {text more : List Char}

/-- Solid characters are neat. -/
theorem of_solid (nonempty : text ≠ []) (solid : ∀ c ∈ text, isSolid c = true) : Neat text := by
  have noSpace (c : Char) (member : c ∈ text) := isSpace_of_isSolid (solid c member)
  refine ⟨?_, ?_, ?_, ?_⟩
  · obtain ⟨c, more, rfl⟩ := List.exists_cons_of_ne_nil nonempty
    exact ⟨c, more, rfl, noSpace c (by simp)⟩
  · exact ⟨text.dropLast, text.getLast nonempty, (List.dropLast_concat_getLast nonempty).symm,
      noSpace _ (List.getLast_mem nonempty)⟩
  · exact fun member => absurd (noSpace _ member) (by decide)
  · intro afterSpace rest
    induction text generalizing afterSpace with
    | nil => exact absurd rfl nonempty
    | cons c text ih =>
        obtain ⟨first, later⟩ := List.forall_mem_cons.mp solid
        rw [List.cons_append, mark_of_isSolid first,
          shrinkAfter_of_noSpace (isSpace_of_isSolid first), List.cons_append]
        congr 1
        cases text with
        | nil => rfl
        | cons d text =>
            exact ih (List.cons_ne_nil d text) later
              (fun e member => isSpace_of_isSolid (later e member))
              false

/-- A mark is neat. -/
theorem of_single {c : Char} {sign : Mark} (alone : Lexeme.single? c = some (.mark sign)) :
    Neat [c] := by
  have solid : Lexeme.markChars.all isSolid = true := by decide
  exact .of_solid (List.cons_ne_nil c []) (List.forall_mem_singleton.mpr
    (List.all_eq_true.mp solid c (Lexeme.mem_markChars alone)))

theorem of_isWord (isWord : Lexeme.IsWord text) : Neat text := by
  refine of_solid ?_ fun c member => isSolid_of_continuesWord (isWord.continues c member)
  obtain ⟨c, tail, rfl, -⟩ := isWord
  exact List.cons_ne_nil c tail

/-- One neat stretch behind another one. -/
theorem append (first : Neat text) (second : Neat more) : Neat (text ++ more) := by
  obtain ⟨c, behind, isFirst, noSpace⟩ := first.begins
  obtain ⟨before, d, isLast, noSpaceLast⟩ := second.ends
  refine ⟨⟨c, behind ++ more, by rw [isFirst, List.cons_append], noSpace⟩,
    ⟨text ++ before, d, by rw [isLast, List.append_assoc], noSpaceLast⟩, ?_, ?_⟩
  · rw [List.mem_append, not_or]
    exact ⟨first.noLineEnd, second.noLineEnd⟩
  · intro afterSpace rest
    rw [List.append_assoc, first.kept, second.kept, List.append_assoc]

/-- A neat stretch behind another one and a blank. -/
theorem spaced (first : Neat text) (second : Neat more) : Neat (text ++ ' ' :: more) := by
  obtain ⟨c, behind, isFirst, noSpace⟩ := first.begins
  obtain ⟨before, d, isLast, noSpaceLast⟩ := second.ends
  refine ⟨⟨c, behind ++ ' ' :: more, by rw [isFirst, List.cons_append], noSpace⟩,
    ⟨text ++ ' ' :: before, d, by rw [isLast, List.append_assoc, List.cons_append], noSpaceLast⟩,
    ?_, ?_⟩
  · rw [List.mem_append, List.mem_cons, not_or, not_or]
    exact ⟨first.noLineEnd, by decide, second.noLineEnd⟩
  · intro afterSpace rest
    rw [List.append_assoc, List.cons_append, first.kept, mark_blank, shrinkAfter_cons,
      if_pos ⟨rfl, by decide⟩, if_neg (by decide), second.kept, List.append_assoc,
      List.cons_append]

/-- A neat line is tidy. -/
theorem isTidy (neat : Neat text) : IsTidy text := by
  refine ⟨neat.begins, neat.ends, neat.noLineEnd, ?_⟩
  have kept : shrinkAfter false (Region.mark .code (text ++ [])) = text ++ [] :=
    neat.kept false []
  rwa [List.append_nil] at kept

end Neat

end Layout

/-- A stretch of text writes some token kinds, and the layout keeps it. -/
structure WritesNeatly (text : List Char) (kinds : List TokenKind) : Prop where
  writes : Writes text kinds
  neat : Layout.Neat text

namespace WritesNeatly

open Lexeme Layout

variable {text more : List Char} {kinds others : List TokenKind}

theorem word {word : String} (isWord : IsWord word.toList) :
    WritesNeatly word.toList [.ident word] := by
  have written := Writes.word isWord
  rw [String.ofList_toList] at written
  exact ⟨written, .of_isWord isWord⟩

/-- What is written one behind the other, where the second text does not continue a
word. -/
theorem append (first : WritesNeatly text kinds) (second : WritesNeatly more others)
    (apart : ∀ d ∈ more.head?, continuesWord d = false) :
    WritesNeatly (text ++ more) (kinds ++ others) :=
  ⟨first.writes.append second.writes apart, first.neat.append second.neat⟩

/-- What is written one behind the other with a blank between them. -/
theorem spaced (first : WritesNeatly text kinds) (second : WritesNeatly more others) :
    WritesNeatly (text ++ ' ' :: more) (kinds ++ others) := by
  refine ⟨first.writes.append second.writes.behind_blank fun d isHead => ?_,
    first.neat.spaced second.neat⟩
  obtain rfl := Option.some.inj isHead
  decide

section Marks

variable {c : Char} {sign : Mark}

/-- A mark of one character. -/
theorem mark (alone : single? c = some (.mark sign)) (noPair : c ≠ ':' ∧ c ≠ '=') :
    WritesNeatly [c] [.mark sign] :=
  ⟨.mark alone noPair, .of_single alone⟩

/-- A mark in front of what writes anything. -/
theorem behind_mark (alone : single? c = some (.mark sign)) (noPair : c ≠ ':' ∧ c ≠ '=')
    (written : WritesNeatly text kinds) : WritesNeatly (c :: text) (.mark sign :: kinds) :=
  ⟨written.writes.behind_mark alone noPair,
    (WritesNeatly.mark alone noPair).neat.append written.neat⟩

/-- A mark between two texts. -/
theorem append_mark (first : WritesNeatly text kinds) (alone : single? c = some (.mark sign))
    (noPair : c ≠ ':' ∧ c ≠ '=') (second : WritesNeatly more others) :
    WritesNeatly (text ++ c :: more) (kinds ++ .mark sign :: others) := by
  refine first.append (second.behind_mark alone noPair) fun d isHead => ?_
  obtain rfl := Option.some.inj isHead
  exact notWord_of_single alone

/-- A mark behind a text. -/
theorem concat_mark (first : WritesNeatly text kinds) (alone : single? c = some (.mark sign))
    (noPair : c ≠ ':' ∧ c ≠ '=') : WritesNeatly (text ++ [c]) (kinds ++ [.mark sign]) := by
  refine first.append (.mark alone noPair) fun d isHead => ?_
  obtain rfl := Option.some.inj isHead
  exact notWord_of_single alone

/-- A comma and a blank between two texts. -/
theorem append_comma (first : WritesNeatly text kinds) (second : WritesNeatly more others) :
    WritesNeatly (text ++ ',' :: ' ' :: more) (kinds ++ .mark .comma :: others) := by
  have written := (first.concat_mark (c := ',') rfl (by decide)).spaced second
  simpa using written

/-- Two colons between two texts. -/
theorem append_colons (first : WritesNeatly text kinds) (second : WritesNeatly more others) :
    WritesNeatly (text ++ ':' :: ':' :: more) (kinds ++ .mark .doubleColon :: others) := by
  refine first.append ⟨second.writes.behind_colons, ?_⟩ fun d isHead => ?_
  · have colon : Neat [':'] := .of_single rfl
    exact (colon.append colon).append second.neat
  · obtain rfl := Option.some.inj isHead
    exact notWord_of_single (c := ':') rfl

/-- A colon and a blank in front of what writes anything. -/
theorem behind_colon (written : WritesNeatly text kinds) :
    WritesNeatly (':' :: ' ' :: text) (.mark .colon :: kinds) :=
  ⟨written.writes.behind_colon, (Neat.of_single (c := ':') rfl).spaced written.neat⟩

/-- An equals sign and a blank in front of what writes anything. -/
theorem behind_equals (written : WritesNeatly text kinds) :
    WritesNeatly ('=' :: ' ' :: text) (.mark .equals :: kinds) :=
  ⟨written.writes.behind_equals, (Neat.of_single (c := '=') rfl).spaced written.neat⟩

/-- An arrow and a blank in front of what writes anything. -/
theorem behind_arrow (written : WritesNeatly text kinds) :
    WritesNeatly ('=' :: '>' :: ' ' :: text) (.mark .arrow :: kinds) :=
  ⟨written.writes.behind_blank.behind_arrow,
    ((Neat.of_single (c := '=') rfl).append (.of_single (c := '>') rfl)).spaced written.neat⟩

end Marks

/-- Words with blanks behind them in front of what writes anything. -/
theorem behind_words {words : List String} (areWords : ∀ word ∈ words, IsWord word.toList)
    (written : WritesNeatly text kinds) :
    WritesNeatly ((words.flatMap fun word => word.toList ++ [' ']) ++ text)
      (words.map .ident ++ kinds) := by
  induction words with
  | nil => exact written
  | cons first words ih =>
      obtain ⟨isWord, others⟩ := List.forall_mem_cons.mp areWords
      have spaced := (WritesNeatly.word isWord).spaced (ih others)
      simpa using spaced

end WritesNeatly

end ErrorAccessors
