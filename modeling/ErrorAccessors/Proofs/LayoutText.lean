/-
# Laid-out code is read as it was written

The layout drops blank lines, indents every line and keeps what is on it.  A text whose
lines are blank, neatly written code or conditional directives is therefore read as the
same tokens behind it, whatever depth its lines are at.  Such texts are put together line
by line, so that a relation between a text and the tokens on its lines suffices to tell
what is read of the text when it has been laid out.
-/

import ErrorAccessors.Proofs.NeatText

namespace ErrorAccessors

namespace Writes

open Lexeme

variable {text line : List Char} {kinds : List TokenKind}

private theorem lineLength_of_line (noLineEnd : '\n' ∉ line) (rest : List Char) :
    lineLength (line ++ '\n' :: rest) = line.length := by
  have ended : ('\n' :: rest).takeWhile (fun c => decide (c ≠ '\n')) = [] := rfl
  rw [lineLength, List.takeWhile_append_of_pos fun c member => ?_, ended, List.append_nil]
  exact decide_eq_true fun same => noLineEnd (same ▸ member)

/-- What is trivia up to the end of its line writes nothing. -/
private theorem behind_trivia {c : Char} (isTrivia : ∀ rest,
      first c (line ++ '\n' :: rest) = trivia line.length) (writes : Writes text kinds) :
    Writes (c :: (line ++ '\n' :: text)) kinds := by
  obtain ⟨chunks, isText, rfl, cut⟩ := writes.behind_lineEnd
  refine ⟨⟨c, line, none⟩ :: chunks, by rw [Chunk.textOf_cons, isText], rfl, fun rest apart => ?_⟩
  have behind : Apart ('\n' :: text) rest := by
    rw [← List.cons_append] at apart
    exact apart.of_append
  refine .cons ?_ ?_ (cut rest behind)
  · rw [isText, List.cons_append, isTrivia]
    rfl
  · rw [isText, List.cons_append, isTrivia]
    exact List.take_left

/-- A conditional directive on a line of its own writes nothing. -/
theorem behind_directive (noLineEnd : '\n' ∉ line) (writes : Writes text kinds) :
    Writes ('#' :: (line ++ '\n' :: text)) kinds := by
  refine behind_trivia (fun rest => ?_) writes
  rw [first, if_neg (by decide), if_neg (by decide), if_pos rfl, lineLength_of_line noLineEnd]

/-- A comment up to the end of its line writes nothing. -/
theorem behind_comment (noLineEnd : '\n' ∉ line) (writes : Writes text kinds) :
    Writes ('/' :: '/' :: (line ++ '\n' :: text)) kinds := by
  have isTrivia (rest : List Char) :
      first '/' (('/' :: line) ++ '\n' :: rest) = trivia ('/' :: line).length := by
    rw [first, if_neg (by decide), if_pos rfl, List.cons_append, slash,
      lineLength_of_line noLineEnd, List.length_cons, Nat.add_comm]
  exact behind_trivia isTrivia writes

/-- A line of its own in front of what writes anything. -/
theorem behind_line {others : List TokenKind} (written : Writes line kinds)
    (writes : Writes text others) : Writes (line ++ '\n' :: text) (kinds ++ others) := by
  refine written.append writes.behind_lineEnd fun d isHead => ?_
  obtain rfl := Option.some.inj isHead
  decide

/-- Blanks in front of what writes anything. -/
theorem behind_blanks (count : Nat) (writes : Writes text kinds) :
    Writes (List.replicate count ' ' ++ text) kinds := by
  induction count with
  | zero => exact writes
  | succ count ih => exact ih.behind_blank

end Writes

namespace Layout

/-- Lay out a text whose first line is at a depth. -/
def layoutFrom (depth : Nat) (text : List Char) : List Char :=
  indentFrom depth ((Text.lines text).map tidy)

theorem toList_normalize (text : String) : (normalize text).toList = layoutFrom 0 text.toList := by
  rw [normalize, String.toList_ofList]
  rfl

section Lines

variable {line : List Char}

private theorem rawLines_of_line (noLineEnd : '\n' ∉ line) (rest : List Char) :
    Text.rawLines (line ++ '\n' :: rest) = (line, true) :: Text.rawLines rest := by
  induction line with
  | nil => rw [List.nil_append, Text.rawLines]
  | cons c line ih =>
      rw [List.cons_append, Text.rawLines, ih (List.not_mem_of_not_mem_cons noLineEnd)]
      rintro rfl
      exact noLineEnd List.mem_cons_self

/-- A tidy line is one line, wherever it is indented to. -/
theorem lines_of_indented (count : Nat) (isTidy : IsTidy line) (rest : List Char) :
    Text.lines (List.replicate count ' ' ++ line ++ '\n' :: rest) =
      (List.replicate count ' ' ++ line) :: Text.lines rest := by
  have noLineEnd : '\n' ∉ List.replicate count ' ' ++ line := by
    simp [isTidy.noLineEnd]
  have kept : Text.dropCarriageReturn (List.replicate count ' ' ++ line) =
      List.replicate count ' ' ++ line := by
    obtain ⟨before, c, isLine, noSpace⟩ := isTidy.ends
    rw [Text.dropCarriageReturn, isLine, ← List.append_assoc, List.reverse_concat]
    split
    · next isReturn =>
      obtain ⟨rfl, -⟩ := List.cons.inj isReturn
      exact absurd noSpace (by decide)
    · rfl
  rw [Text.lines, rawLines_of_line noLineEnd, List.map_cons]
  dsimp only
  rw [if_pos rfl, kept]
  rfl

private theorem layoutFrom_blank (depth : Nat) (rest : List Char) :
    layoutFrom depth ('\n' :: rest) = layoutFrom depth rest := by
  rw [layoutFrom, Text.lines, Text.rawLines, List.map_cons, List.map_cons, indentFrom]
  exact if_pos rfl

/-- A tidy line is indented, unless it is a directive. -/
private theorem layoutFrom_line (depth : Nat) (isTidy : IsTidy line) (rest : List Char) :
    layoutFrom depth (line ++ '\n' :: rest) =
      if line.head? = some '#' then line ++ '\n' :: layoutFrom depth rest
      else List.replicate (4 * depthOf depth line) ' ' ++ line ++
        '\n' :: layoutFrom (depthBehind depth line) rest := by
  have isLine := lines_of_indented 0 isTidy rest
  rw [List.replicate_zero, List.nil_append] at isLine
  rw [layoutFrom, isLine, List.map_cons, isTidy.tidy_eq, indentFrom, if_neg isTidy.ne_nil]
  rfl

/-- There is no white space around a tidy line but its indentation. -/
theorem trim_of_indented (count : Nat) (isTidy : IsTidy line) :
    Unicode.trim (List.replicate count ' ' ++ line) = line := by
  have blanks : Unicode.trim (List.replicate count ' ' ++ line) = Unicode.trim line := by
    rw [Unicode.trim, Unicode.trimLeft, List.dropWhile_append_of_pos fun c member => ?_]
    · rfl
    · rw [List.eq_of_mem_replicate member]
      decide
  rw [blanks, isTidy.trim_eq]

/-- The lines of a text that are not blank, without the white space around them. -/
def trimmedLines (text : List Char) : List (List Char) :=
  ((Text.splitAt (· = '\n') text).map Unicode.trim).filter (· ≠ [])

theorem trimmedLines_append (text more : List Char) :
    trimmedLines (text ++ '\n' :: more) = trimmedLines text ++ trimmedLines more := by
  rw [trimmedLines, Text.splitAt_append, List.map_append, List.filter_append]
  rfl

/-- A neat line is one line, wherever it is indented to. -/
theorem trimmedLines_of_neat (neat : Neat line) (count : Nat) :
    trimmedLines (List.replicate count ' ' ++ line) = [line] := by
  have noLineEnd : '\n' ∉ List.replicate count ' ' ++ line := by
    simp [neat.noLineEnd]
  rw [trimmedLines, Text.splitAt_of_notMem noLineEnd, List.map_singleton,
    trim_of_indented count neat.isTidy,
    List.filter_cons_of_pos (by simp [neat.isTidy.ne_nil]), List.filter_nil]

end Lines

end Layout

open Layout in
/-- A text whose lines are blank, directives or neatly written code, with the tokens of the
code. -/
inductive LaysOut : String → List TokenKind → Prop
  | blank : LaysOut "" []
  | directive {line : String} (neat : Neat ("#" ++ line).toList) : LaysOut ("#" ++ line) []
  | code {line : String} {kinds : List TokenKind} (written : WritesNeatly line.toList kinds) :
      LaysOut line kinds
  | append {text more : String} {kinds others : List TokenKind} (first : LaysOut text kinds)
      (second : LaysOut more others) : LaysOut (text ++ "\n" ++ more) (kinds ++ others)

namespace LaysOut

open Layout

variable {text : String} {kinds : List TokenKind}

private theorem noLineEnd_of_directive {line : String} (neat : Neat ("#" ++ line).toList) :
    '\n' ∉ line.toList := by
  have := neat.noLineEnd
  simp_all

/-- Laid out in front of what is read wherever it is laid out, a text is read as the
tokens of its code. -/
private theorem writes_layoutFrom (laysOut : LaysOut text kinds) {rest : List Char}
    {others : List TokenKind} (behind : ∀ depth, Writes (layoutFrom depth rest) others)
    (depth : Nat) :
    Writes (layoutFrom depth (text.toList ++ '\n' :: rest)) (kinds ++ others) := by
  induction laysOut generalizing rest others depth with
  | blank => exact layoutFrom_blank depth rest ▸ behind depth
  | @directive line neat =>
      rw [layoutFrom_line depth neat.isTidy, if_pos (by simp)]
      simpa using (behind depth).behind_directive (noLineEnd_of_directive neat)
  | @code line kinds written =>
      rw [layoutFrom_line depth written.neat.isTidy]
      split
      · exact written.writes.behind_line (behind depth)
      · rw [List.append_assoc]
        exact (written.writes.behind_line (behind _)).behind_blanks _
  | @append text more kinds others first second ihFirst ihSecond =>
      have written := ihFirst (fun depth => ihSecond behind depth) depth
      simpa using written

/-- When a text has been laid out, it is read as the tokens of its code. -/
theorem writes_normalize (laysOut : LaysOut text kinds) :
    Writes (normalize (text ++ "\n")).toList kinds := by
  have nothing (depth : Nat) : Writes (layoutFrom depth []) [] := .nothing
  have written := laysOut.writes_layoutFrom nothing 0
  rw [toList_normalize]
  simpa using written

/-- As it is, in front of what is read as some tokens, a text is read as the tokens of its
code. -/
private theorem writes_append (laysOut : LaysOut text kinds) {rest : List Char}
    {others : List TokenKind} (behind : Writes rest others) :
    Writes (text.toList ++ '\n' :: rest) (kinds ++ others) := by
  induction laysOut generalizing rest others with
  | blank => exact behind.behind_lineEnd
  | @directive line neat =>
      simpa using behind.behind_directive (noLineEnd_of_directive neat)
  | code written => exact written.writes.behind_line behind
  | append first second ihFirst ihSecond =>
      have written := ihFirst (ihSecond behind)
      simpa using written

/-- As it is, a text is read as the tokens of its code. -/
theorem writes (laysOut : LaysOut text kinds) : Writes (text ++ "\n").toList kinds := by
  simpa using laysOut.writes_append .nothing

/-- The layout changes no token. -/
theorem map_kind_tokens_normalize (laysOut : LaysOut text kinds) (path : String) :
    (Token.tokens (.ofText path (normalize (text ++ "\n")))).map (·.kind) =
      (Token.tokens (.ofText path (text ++ "\n"))).map (·.kind) := by
  rw [laysOut.writes_normalize.map_kind_tokens, laysOut.writes.map_kind_tokens]

/-- In front of what has the same lines wherever it is laid out, a text keeps its lines. -/
private theorem trimmedLines_layoutFrom (laysOut : LaysOut text kinds) {rest : List Char}
    {others : List (List Char)} (behind : ∀ depth, trimmedLines (layoutFrom depth rest) = others)
    (depth : Nat) :
    trimmedLines (layoutFrom depth (text.toList ++ '\n' :: rest)) =
      trimmedLines text.toList ++ others := by
  induction laysOut generalizing rest others depth with
  | blank => exact layoutFrom_blank depth rest ▸ behind depth
  | @directive line neat =>
      rw [layoutFrom_line depth neat.isTidy, if_pos (by simp), trimmedLines_append, behind]
  | @code line kinds written =>
      have alone := trimmedLines_of_neat written.neat 0
      rw [List.replicate_zero, List.nil_append] at alone
      rw [layoutFrom_line depth written.neat.isTidy]
      split
      · rw [trimmedLines_append, behind]
      · rw [trimmedLines_append, trimmedLines_of_neat written.neat, behind, alone]
  | @append text more kinds others first second ihFirst ihSecond =>
      have kept := ihFirst (fun depth => ihSecond behind depth) depth
      simpa [trimmedLines_append] using kept

/-- When a text has been laid out, it has the same lines. -/
theorem trimmedLines_normalize (laysOut : LaysOut text kinds) :
    trimmedLines (normalize (text ++ "\n")).toList = trimmedLines text.toList := by
  have nothing (depth : Nat) : trimmedLines (layoutFrom depth []) = [] := rfl
  have kept := laysOut.trimmedLines_layoutFrom nothing 0
  rw [toList_normalize]
  simpa using kept

end LaysOut

end ErrorAccessors
