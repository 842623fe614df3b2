/-
# The layout settles

Laying out a text twice is laying it out once.  A line that has been tidied begins and ends
with what is no white space, and tidying it again changes nothing.  The lines of the result
are these lines behind their indentation, which tidying takes off, so the second time the
same lines are laid out from the same depth.

The layout touches white space only: the other characters of a text stay, in their order.
Line by line, what is read as a literal or a comment stays as it is, white space included.
-/

import Mathlib.Data.List.Forall2
import ErrorAccessors.Proofs.LayoutText
import ErrorAccessors.Proofs.SolidText
import ErrorAccessors.Proofs.SqueezedCode

namespace ErrorAccessors

namespace Layout

open Unicode

variable {c : Char} {region : Region} {line : List Char} {marked : List (Char × Region)}

/-- Only blanks are written that were not read. -/
theorem mem_shrinkAfter {afterSpace : Bool} (member : c ∈ shrinkAfter afterSpace marked) :
    c = ' ' ∨ c ∈ marked.map (·.1) := by
  fun_induction shrinkAfter afterSpace marked with
  | case1 => cases member
  | case2 first region rest gap ih => exact (ih member).imp_right (List.mem_cons_of_mem _)
  | case3 afterSpace first region rest gap noBlank ih =>
      rcases List.mem_cons.mp member with rfl | member
      · exact .inl rfl
      · exact (ih member).imp_right (List.mem_cons_of_mem _)
  | case4 afterSpace first region rest solid ih =>
      rcases List.mem_cons.mp member with rfl | member
      · exact .inr List.mem_cons_self
      · exact (ih member).imp_right (List.mem_cons_of_mem _)

theorem solids_shrinkAfter (afterSpace : Bool) (marked : List (Char × Region)) :
    solids (shrinkAfter afterSpace marked) = solids (marked.map (·.1)) := by
  fun_induction shrinkAfter afterSpace marked with
  | case1 => rfl
  | case2 c region rest gap ih => rw [List.map_cons, solids_cons_of_isSpace gap.2, ih]
  | case3 afterSpace c region rest gap noBlank ih =>
      rw [List.map_cons, solids_cons_of_isSpace gap.2, solids_cons_of_isSpace (by decide), ih]
  | case4 afterSpace c region rest solid ih =>
      cases space : isSpace c with
      | true => rw [List.map_cons, solids_cons_of_isSpace space, solids_cons_of_isSpace space, ih]
      | false => rw [List.map_cons, solids_cons_of_noSpace space, solids_cons_of_noSpace space, ih]

theorem shrinkAfter_ends (noSpace : isSpace c = false) (afterSpace : Bool)
    (marked : List (Char × Region)) :
    ∃ before, shrinkAfter afterSpace (marked ++ [(c, region)]) = before ++ [c] := by
  induction marked generalizing afterSpace with
  | nil => exact ⟨[], shrinkAfter_of_noSpace noSpace afterSpace region []⟩
  | cons first marked ih =>
      rw [List.cons_append, shrinkAfter]
      split
      · obtain ⟨before, ends⟩ := ih true
        split
        · exact ⟨before, ends⟩
        · exact ⟨' ' :: before, congrArg _ ends⟩
      · obtain ⟨before, ends⟩ := ih (first.1 == ' ')
        exact ⟨first.1 :: before, congrArg _ ends⟩

theorem tidy_begins (nonblank : trim line ≠ []) :
    ∃ c more, tidy line = c :: more ∧ isSpace c = false := by
  obtain ⟨c, more, starts, noSpace⟩ := trim_begins nonblank
  obtain ⟨inside, behind, isMark⟩ := exists_mark_cons .code c more
  exact ⟨c, _, by rw [tidy, starts, isMark, shrinkAfter_of_noSpace noSpace], noSpace⟩

theorem tidy_ends (nonblank : trim line ≠ []) :
    ∃ before c, tidy line = before ++ [c] ∧ isSpace c = false := by
  obtain ⟨before, c, ends, noSpace⟩ := trim_ends nonblank
  obtain ⟨front, inside, isMark⟩ := exists_mark_concat .code before c
  obtain ⟨kept, written⟩ := shrinkAfter_ends noSpace false front
  exact ⟨kept, c, by rw [tidy, ends, isMark, written], noSpace⟩

/-- Tidying a line that is not blank makes it tidy. -/
theorem isTidy_tidy (noLineEnd : '\n' ∉ line) (nonblank : trim line ≠ []) : IsTidy (tidy line) := by
  refine ⟨tidy_begins nonblank, tidy_ends nonblank, fun member => ?_, shrinkAfter_shrinkAfter _⟩
  rcases mem_shrinkAfter member with blank | member
  · exact absurd blank (by decide)
  · rw [Region.map_fst_mark] at member
    obtain ⟨front, back, isLine, -, -⟩ := exists_trim line
    rw [isLine] at noLineEnd
    exact noLineEnd (List.mem_append_left _ (List.mem_append_right _ member))

theorem solids_tidy (line : List Char) : solids (tidy line) = solids line := by
  rw [tidy, solids_shrinkAfter, Region.map_fst_mark, solids_trim]

theorem tidy_eq_nil_iff : tidy line = [] ↔ trim line = [] := by
  constructor
  · intro nothing
    by_contra nonblank
    obtain ⟨c, more, starts, noSpace⟩ := tidy_begins nonblank
    exact List.cons_ne_nil c more (starts.symm.trans nothing)
  · intro isBlank
    rw [tidy, isBlank, Region.mark, shrinkAfter]

/-- A line that is not blank is written behind some blanks. -/
theorem exists_indentFrom_cons (depth : Nat) (nonblank : line ≠ []) (rows : List (List Char)) :
    ∃ count behind, indentFrom depth (line :: rows) =
      List.replicate count ' ' ++ line ++ '\n' :: indentFrom behind rows := by
  rw [indentFrom, if_neg nonblank]
  split
  · exact ⟨0, depth, rfl⟩
  · exact ⟨_, _, rfl⟩

theorem indentFrom_blank (depth : Nat) (rows : List (List Char)) :
    indentFrom depth ([] :: rows) = indentFrom depth rows :=
  if_pos rfl

theorem solids_indentFrom (depth : Nat) (rows : List (List Char)) :
    solids (indentFrom depth rows) = rows.flatMap solids := by
  induction rows generalizing depth with
  | nil => rfl
  | cons line rows ih =>
      rw [List.flatMap_cons]
      by_cases isBlank : line = []
      · rw [isBlank, indentFrom_blank, ih]
        rfl
      · obtain ⟨count, behind, written⟩ := exists_indentFrom_cons depth isBlank rows
        have blanks : solids (List.replicate count ' ') = [] :=
          solids_eq_nil fun c member => List.eq_of_mem_replicate member ▸ by decide
        rw [written, solids_append, solids_append, blanks, List.nil_append,
          solids_cons_of_isSpace (by decide), ih]

/-- Blank lines do not count. -/
theorem indentFrom_filter (depth : Nat) (rows : List (List Char)) :
    indentFrom depth (rows.filter (· ≠ [])) = indentFrom depth rows := by
  induction rows generalizing depth with
  | nil => rfl
  | cons line rows ih =>
      by_cases isBlank : line = []
      · rw [isBlank, List.filter_cons_of_neg (by simp), indentFrom_blank, ih]
      · rw [List.filter_cons_of_pos (by simpa using isBlank), indentFrom, indentFrom,
          if_neg isBlank, if_neg isBlank, ih, ih]

/-- A line is written behind blanks. -/
def IsIndented (line written : List Char) : Prop :=
  ∃ count, written = List.replicate count ' ' ++ line

/-- The lines of what has been laid out are the lines that were laid out, indented. -/
theorem forall₂_lines_indentFrom (depth : Nat) {rows : List (List Char)}
    (areTidy : ∀ line ∈ rows, line ≠ [] → IsTidy line) :
    List.Forall₂ IsIndented (rows.filter (· ≠ [])) (Text.lines (indentFrom depth rows)) := by
  induction rows generalizing depth with
  | nil => exact .nil
  | cons line rows ih =>
      obtain ⟨isTidy, others⟩ := List.forall_mem_cons.mp areTidy
      by_cases isBlank : line = []
      · rw [isBlank, List.filter_cons_of_neg (by simp), indentFrom_blank]
        exact ih depth others
      · obtain ⟨count, behind, written⟩ := exists_indentFrom_cons depth isBlank rows
        rw [List.filter_cons_of_pos (by simpa using isBlank), written,
          lines_of_indented count (isTidy isBlank)]
        exact .cons ⟨count, rfl⟩ (ih behind others)

/-- Tidying takes the indentation off again. -/
theorem map_tidy_of_forall₂ {rows written : List (List Char)}
    (areIndented : List.Forall₂ IsIndented rows written) (areTidy : ∀ line ∈ rows, IsTidy line) :
    written.map tidy = rows := by
  induction areIndented with
  | nil => rfl
  | cons first _ ih =>
      obtain ⟨isTidy, others⟩ := List.forall_mem_cons.mp areTidy
      obtain ⟨count, rfl⟩ := first
      rw [List.map_cons, ih others, tidy, trim_of_indented count isTidy, isTidy.kept]

/-- What has been laid out stays as it is. -/
theorem layoutFrom_indentFrom (depth : Nat) {rows : List (List Char)}
    (areTidy : ∀ line ∈ rows, line ≠ [] → IsTidy line) :
    layoutFrom depth (indentFrom depth rows) = indentFrom depth rows := by
  have tidied : (Text.lines (indentFrom depth rows)).map tidy = rows.filter (· ≠ []) := by
    refine map_tidy_of_forall₂ (forall₂_lines_indentFrom depth areTidy) fun line member => ?_
    obtain ⟨isRow, nonblank⟩ := List.mem_filter.mp member
    exact areTidy line isRow (by simpa using nonblank)
  -- The same lines from the same depth are indented alike.
  rw [layoutFrom, tidied, indentFrom_filter]

/-- The lines that are laid out are tidy. -/
theorem isTidy_of_mem_map (text : List Char) :
    ∀ row ∈ (Text.lines text).map tidy, row ≠ [] → IsTidy row := by
  rw [List.forall_mem_map]
  exact fun line member nonblank =>
    isTidy_tidy (Text.notMem_lines member) (mt tidy_eq_nil_iff.mpr nonblank)

/-- A line is written without the white space around it, behind blanks, and with the white
space between code squeezed. -/
def RelaidAs (line written : List Char) : Prop :=
  ∃ kept, IsIndented kept written ∧
    Squeezes (Region.mark .code (trim line)) (Region.mark .code kept)

theorem forall₂_relaidAs (depth : Nat) (text : List Char) :
    List.Forall₂ RelaidAs ((Text.lines text).filter fun line => trim line ≠ [])
      (Text.lines (layoutFrom depth text)) := by
  have rows := forall₂_lines_indentFrom depth (isTidy_of_mem_map text)
  have nonblank : ((Text.lines text).map tidy).filter (· ≠ []) =
      ((Text.lines text).filter fun line => trim line ≠ []).map tidy := by
    rw [List.filter_map]
    congr 2
    funext line
    simp [tidy_eq_nil_iff]
  rw [nonblank, List.forall₂_map_left_iff] at rows
  exact rows.imp fun line written isIndented => ⟨tidy line, isIndented, squeezes_tidy line⟩

/-- Laying out a text again changes nothing.  What is no white space stays, and so does, line
by line, what is read as a literal or a comment. -/
theorem normalize_settles (text : String) :
    normalize (normalize text) = normalize text ∧
    solids (normalize text).toList = solids text.toList ∧
    List.Forall₂ RelaidAs ((Text.lines text.toList).filter fun line => trim line ≠ [])
      (Text.lines (normalize text).toList) := by
  refine ⟨?_, ?_, ?_⟩
  · rw [← String.toList_inj, toList_normalize, toList_normalize]
    exact layoutFrom_indentFrom 0 (isTidy_of_mem_map text.toList)
  · rw [toList_normalize, layoutFrom, solids_indentFrom, List.flatMap_map]
    rw [← Text.flatMap_solids_lines text.toList]
    exact List.flatMap_congr fun line _ => solids_tidy line
  · rw [toList_normalize]
    exact forall₂_relaidAs 0 text.toList

end Layout

end ErrorAccessors
