/-
# The characters of a text that are no white space

White space is what trimming takes off a text, and line ends are white space.  So a text
has the same other characters before and after trimming, and they are those of its lines
together.
-/

import Mathlib.Data.List.DropRight
import ErrorAccessors.Text.Line
import ErrorAccessors.Unicode.Space

namespace ErrorAccessors

namespace Unicode

/-- The characters of a text that are no white space. -/
def solids (text : List Char) : List Char :=
  text.filter fun c => !isSpace c

variable {text : List Char} {c : Char}

theorem solids_append (text more : List Char) :
    solids (text ++ more) = solids text ++ solids more :=
  List.filter_append ..

theorem solids_cons_of_isSpace (space : isSpace c = true) (text : List Char) :
    solids (c :: text) = solids text :=
  List.filter_cons_of_neg (by simp [space])

theorem solids_cons_of_noSpace (noSpace : isSpace c = false) (text : List Char) :
    solids (c :: text) = c :: solids text :=
  List.filter_cons_of_pos (by simp [noSpace])

theorem solids_eq_nil (spaces : ∀ c ∈ text, isSpace c = true) : solids text = [] := by
  rw [solids, List.filter_eq_nil_iff]
  intro c member
  simp [spaces c member]

/-- What is trimmed off a text is white space around it. -/
theorem exists_trim (text : List Char) : ∃ front back, text = front ++ trim text ++ back ∧
    (∀ c ∈ front, isSpace c = true) ∧ ∀ c ∈ back, isSpace c = true := by
  have right :
      trim text ++ ((trimLeft text).reverse.takeWhile isSpace).reverse = trimLeft text := by
    rw [trim, trimRight, ← List.reverse_append, List.takeWhile_append_dropWhile,
      List.reverse_reverse]
  refine ⟨text.takeWhile isSpace, ((trimLeft text).reverse.takeWhile isSpace).reverse, ?_, ?_, ?_⟩
  · rw [List.append_assoc, right, trimLeft, List.takeWhile_append_dropWhile]
  · exact fun c member => List.all_eq_true.mp List.all_takeWhile c member
  · exact fun c member => List.all_eq_true.mp List.all_takeWhile c (List.mem_reverse.mp member)

theorem solids_trim (text : List Char) : solids (trim text) = solids text := by
  obtain ⟨front, back, isText, spaces, spacesBehind⟩ := exists_trim text
  conv_rhs => rw [isText]
  rw [solids_append, solids_append, solids_eq_nil spaces, solids_eq_nil spacesBehind,
    List.nil_append, List.append_nil]

theorem trim_begins (nonblank : trim text ≠ []) :
    ∃ c more, trim text = c :: more ∧ isSpace c = false := by
  obtain ⟨c, more, starts⟩ := List.exists_cons_of_ne_nil nonblank
  obtain ⟨behind, isLeft⟩ : trim text <+: trimLeft text :=
    List.rdropWhile_prefix isSpace (trimLeft text)
  have solid := List.head?_dropWhile_not isSpace text
  rw [← trimLeft, ← isLeft, starts] at solid
  exact ⟨c, more, starts, solid⟩

theorem trim_ends (nonblank : trim text ≠ []) :
    ∃ before c, trim text = before ++ [c] ∧ isSpace c = false := by
  refine ⟨_, _, (List.dropLast_concat_getLast nonblank).symm, ?_⟩
  exact Bool.eq_false_iff.mpr (List.rdropWhile_last_not isSpace (trimLeft text) nonblank)

end Unicode

namespace Text

open Unicode

variable {text line : List Char}

/-- A text is its lines with their line ends. -/
theorem flatMap_rawLines (text : List Char) :
    ((rawLines text).flatMap fun (line, ended) => line ++ if ended then ['\n'] else []) = text := by
  fun_induction rawLines text with
  | case1 => rfl
  | case2 rest ih =>
      rw [List.flatMap_cons, ih]
      rfl
  | case3 c rest noEnd isLast ih =>
      rw [isLast] at ih
      simpa using ih
  | case4 c rest noEnd line ended others isNext ih =>
      rw [isNext] at ih
      simpa using ih

/-- A line has no line feed in it. -/
theorem notMem_rawLines {row : List Char × Bool} (member : row ∈ rawLines text) : '\n' ∉ row.1 := by
  fun_induction rawLines text generalizing row with
  | case1 => cases member
  | case2 rest ih =>
      obtain rfl | member := List.mem_cons.mp member
      · exact List.not_mem_nil
      · exact ih member
  | case3 c rest noEnd isLast ih =>
      obtain rfl := List.mem_singleton.mp member
      exact fun isEnd => noEnd (List.mem_singleton.mp isEnd).symm
  | case4 c rest noEnd line ended others isNext ih =>
      obtain rfl | member := List.mem_cons.mp member
      · have isRow : (line, ended) ∈ rawLines rest := isNext ▸ List.mem_cons_self
        have solid : '\n' ∉ line := ih isRow
        exact List.not_mem_cons_of_ne_of_not_mem (fun isEnd => noEnd isEnd.symm) solid
      · exact ih (isNext ▸ List.mem_cons_of_mem _ member)

theorem dropCarriageReturn_cases (line : List Char) : dropCarriageReturn line = line ∨
    line = dropCarriageReturn line ++ ['\r'] := by
  unfold dropCarriageReturn
  split
  · next rest isReverse =>
    right
    rw [← List.reverse_cons, ← isReverse, List.reverse_reverse]
  · exact .inl rfl

theorem solids_dropCarriageReturn (line : List Char) :
    solids (dropCarriageReturn line) = solids line := by
  obtain same | split := dropCarriageReturn_cases line
  · rw [same]
  · conv_rhs => rw [split]
    rw [solids_append]
    exact (List.append_nil _).symm

/-- Between its lines a text has nothing but white space. -/
theorem flatMap_solids_lines (text : List Char) : (lines text).flatMap solids = solids text := by
  conv_rhs => rw [← flatMap_rawLines text]
  rw [lines, List.flatMap_map, solids, List.filter_flatMap]
  refine List.flatMap_congr fun (line, ended) _ => ?_
  cases ended with
  | false => exact congrArg solids (List.append_nil line).symm
  | true =>
      have behind : solids (line ++ ['\n']) = solids line :=
        (solids_append line ['\n']).trans (List.append_nil _)
      exact (solids_dropCarriageReturn line).trans behind.symm

theorem notMem_lines (member : line ∈ lines text) : '\n' ∉ line := by
  rw [lines, List.mem_map] at member
  obtain ⟨⟨row, ended⟩, isRow, rfl⟩ := member
  have solid : '\n' ∉ row := notMem_rawLines isRow
  cases ended with
  | false => exact solid
  | true =>
      show '\n' ∉ dropCarriageReturn row
      intro isEnd
      obtain same | split := dropCarriageReturn_cases row
      · exact solid (same ▸ isEnd)
      · rw [split] at solid
        exact solid (List.mem_append_left _ isEnd)

end Text

end ErrorAccessors
