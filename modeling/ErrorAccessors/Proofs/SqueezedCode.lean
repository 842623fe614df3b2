/-
# Squeezing the white space between code

The layout reads a line together with the region of every character and writes the
characters back without their regions.  When the result is read again, every character is
found in the region it was written from: a run of white space between code has become one
blank of code, and whatever else was read, literals and comments with their white space
included, is there as it was.  Lines with a literal that is left open, or that end behind a
backslash, are no exception.

Two steps of reading look at a second character: `//` begins a comment and `@"` a literal.
Squeezing brings no two characters together that were apart, since a run leaves a blank, so
neither is read where it was not before.
-/

import ErrorAccessors.Proofs.NeatText

namespace ErrorAccessors.Layout

/-- White space between code. -/
def IsGap (marked : Char × Region) : Prop :=
  marked.2 = .code ∧ Unicode.isSpace marked.1 = true

instance : DecidablePred IsGap :=
  fun marked => inferInstanceAs (Decidable (marked.2 = .code ∧ Unicode.isSpace marked.1 = true))

/-- Every run of white space between code becomes one blank, and nothing else changes. -/
inductive Squeezes : List (Char × Region) → List (Char × Region) → Prop
  | nil : Squeezes [] []
  | kept {marked : Char × Region} {before after : List (Char × Region)} (solid : ¬ IsGap marked)
      (behind : Squeezes before after) : Squeezes (marked :: before) (marked :: after)
  | run {gaps before after : List (Char × Region)} (nonempty : gaps ≠ [])
      (areGaps : ∀ gap ∈ gaps, IsGap gap) (ended : ∀ next ∈ before.head?, ¬ IsGap next)
      (behind : Squeezes before after) : Squeezes (gaps ++ before) ((' ', .code) :: after)

/-- Squeeze a marked line, given whether the blank of a run was written just before. -/
def squeezeAfter : Bool → List (Char × Region) → List (Char × Region)
  | _, [] => []
  | afterGap, marked :: rest =>
    if IsGap marked then
      if afterGap then squeezeAfter true rest else (' ', .code) :: squeezeAfter true rest
    else marked :: squeezeAfter false rest

section Squeezing

variable {c : Char} {region : Region} {first : Char × Region} {marked : List (Char × Region)}

theorem isGap_blank : IsGap (' ', .code) :=
  ⟨rfl, by decide⟩

theorem not_isGap_of_literal (literal : region ≠ .code) : ¬ IsGap (c, region) :=
  fun gap => literal gap.1

theorem shrinkAfter_kept (solid : ¬ IsGap (c, region)) (afterSpace : Bool) :
    shrinkAfter afterSpace ((c, region) :: marked) = c :: shrinkAfter (c == ' ') marked :=
  if_neg solid

theorem squeezeAfter_kept (solid : ¬ IsGap first) (afterGap : Bool) :
    squeezeAfter afterGap (first :: marked) = first :: squeezeAfter false marked :=
  if_neg solid

/-- Where there are no gaps, everything is kept. -/
theorem shrinkAfter_of_forall (solid : ∀ next ∈ marked, ¬ IsGap next) (afterSpace : Bool) :
    shrinkAfter afterSpace marked = marked.map (·.1) := by
  induction marked generalizing afterSpace with
  | nil => rfl
  | cons first marked ih =>
      obtain ⟨kept, others⟩ := List.forall_mem_cons.mp solid
      rw [shrinkAfter_kept kept, ih others, List.map_cons]

theorem squeezeAfter_of_forall (solid : ∀ next ∈ marked, ¬ IsGap next) (afterGap : Bool) :
    squeezeAfter afterGap marked = marked := by
  induction marked generalizing afterGap with
  | nil => rfl
  | cons first marked ih =>
      obtain ⟨kept, others⟩ := List.forall_mem_cons.mp solid
      rw [squeezeAfter_kept kept, ih others]

/-- In front of what is kept it does not matter what was written before. -/
theorem squeezeAfter_of_head (solid : ∀ next ∈ marked.head?, ¬ IsGap next) (afterGap : Bool) :
    squeezeAfter afterGap marked = squeezeAfter false marked := by
  cases marked with
  | nil => rfl
  | cons next marked =>
      have kept := solid next rfl
      rw [squeezeAfter_kept kept, squeezeAfter_kept kept]

/-- Behind the blank of a run the rest of the run is left out. -/
theorem squeezeAfter_dropWhile (marked : List (Char × Region)) :
    squeezeAfter true marked = squeezeAfter false (marked.dropWhile (IsGap ·)) := by
  induction marked with
  | nil => rfl
  | cons first marked ih =>
      by_cases gap : IsGap first
      · rw [List.dropWhile_cons_of_pos (by simpa using gap), ← ih, squeezeAfter, if_pos gap,
          if_pos rfl]
      · rw [List.dropWhile_cons_of_neg (by simpa using gap), squeezeAfter_kept gap,
          squeezeAfter_kept gap]

theorem squeezes_squeezeAfter (marked : List (Char × Region)) :
    Squeezes marked (squeezeAfter false marked) := by
  -- A whole run is taken at once, so the induction is on the length of what is left.
  induction isLength : marked.length using Nat.strongRecOn generalizing marked with
  | ind length ih =>
      subst isLength
      cases marked with
      | nil => exact .nil
      | cons first marked =>
          by_cases gap : IsGap first
          · have run : first :: marked =
                (first :: marked.takeWhile (IsGap ·)) ++ marked.dropWhile (IsGap ·) := by
              rw [List.cons_append, List.takeWhile_append_dropWhile]
            have shorter := (List.dropWhile_sublist (IsGap ·) (l := marked)).length_le
            rw [squeezeAfter, if_pos gap, if_neg Bool.false_ne_true, squeezeAfter_dropWhile, run]
            refine .run (List.cons_ne_nil _ _) (List.forall_mem_cons.mpr ⟨gap, ?_⟩) ?_
              (ih _ (Nat.lt_succ_of_le shorter) _ rfl)
            · intro next member
              simpa using List.all_eq_true.mp List.all_takeWhile next member
            · intro next isHead
              have solid := List.head?_dropWhile_not (IsGap ·) marked
              rw [isHead] at solid
              simpa using solid
          · rw [squeezeAfter_kept gap]
            exact .kept gap (ih _ (Nat.lt_succ_self _) _ rfl)

/-- What has been squeezed is squeezed. -/
theorem squeezeAfter_squeezeAfter (afterGap : Bool) (marked : List (Char × Region)) :
    squeezeAfter afterGap (squeezeAfter afterGap marked) = squeezeAfter afterGap marked := by
  fun_induction squeezeAfter afterGap marked with
  | case1 => rfl
  | case2 first rest gap ih => exact ih
  | case3 afterGap first rest gap noBlank ih =>
      rw [squeezeAfter, if_pos isGap_blank, if_neg noBlank, ih]
  | case4 afterGap first rest solid ih => rw [squeezeAfter_kept solid, ih]

end Squeezing

section Marking

variable {c d : Char} {region : Region} {line more : List Char}

theorem exists_mark_cons (region : Region) (c : Char) (line : List Char) :
    ∃ inside behind, Region.mark region (c :: line) = (c, inside) :: behind := by
  have same := Region.map_fst_mark region (c :: line)
  cases found : Region.mark region (c :: line) with
  | nil => simp [found] at same
  | cons first behind =>
      obtain ⟨d, inside⟩ := first
      rw [found, List.map_cons, List.cons.injEq] at same
      obtain rfl : d = c := same.1
      exact ⟨inside, behind, rfl⟩

theorem exists_mark_concat (region : Region) (line : List Char) (c : Char) :
    ∃ front inside, Region.mark region (line ++ [c]) = front ++ [(c, inside)] := by
  have same := Region.map_fst_mark region (line ++ [c])
  rw [List.map_eq_append_iff] at same
  obtain ⟨front, last, isMark, -, isLast⟩ := same
  obtain ⟨⟨d, inside⟩, nothing, rfl, rfl, isNil⟩ := List.map_eq_cons_iff.mp isLast
  obtain rfl := List.map_eq_nil_iff.mp isNil
  exact ⟨front, inside, isMark⟩

/-- Inside of a literal no gap comes next. -/
theorem not_isGap_of_mark (literal : region ≠ .code) :
    ∀ next ∈ (Region.mark region line).head?, ¬ IsGap next := by
  intro next isHead
  suffices inside : next.2 = region from fun gap => literal (inside.symm.trans gap.1)
  rw [Region.mark.eq_def] at isHead
  split at isHead <;> cases isHead
  all_goals first | rfl | exact absurd rfl literal

/-- Behind what is kept and in front of a literal any flag does. -/
theorem squeezeAfter_literal (solid : ¬ IsGap (c, region)) {inside : Region}
    (literal : inside ≠ .code) (afterGap flag : Bool) :
    squeezeAfter afterGap ((c, region) :: Region.mark inside line) =
      (c, region) :: squeezeAfter flag (Region.mark inside line) := by
  rw [squeezeAfter_kept solid, squeezeAfter_of_head (not_isGap_of_mark literal) flag]

/-- What is written of a line begins as the line does, or with a blank. -/
theorem exists_of_shrinkAfter_mark
    (starts : shrinkAfter false (Region.mark region line) = d :: more) :
    ∃ c rest, line = c :: rest ∧ (d = c ∨ d = ' ') := by
  cases line with
  | nil => simp [Region.mark, shrinkAfter] at starts
  | cons c rest =>
      obtain ⟨inside, behind, isMark⟩ := exists_mark_cons region c rest
      refine ⟨c, rest, rfl, ?_⟩
      rw [isMark, shrinkAfter] at starts
      split at starts
      · exact .inr (List.cons.inj starts).1.symm
      · exact .inl (List.cons.inj starts).1.symm

/-- A character that a line does not begin with is not brought to its front. -/
theorem not_starts_of_shrinkAfter_mark (noBlank : d ≠ ' ') (starts : ∀ rest, line ≠ d :: rest) :
    shrinkAfter false (Region.mark region line) ≠ d :: more := by
  intro written
  obtain ⟨c, rest, rfl, rfl | blank⟩ := exists_of_shrinkAfter_mark written
  · exact starts rest rfl
  · exact noBlank blank

/-- What is written of a line is read in the same regions. -/
theorem mark_shrinkAfter (region : Region) (line : List Char) (afterSpace : Bool) :
    Region.mark region (shrinkAfter afterSpace (Region.mark region line)) =
      squeezeAfter afterSpace (Region.mark region line) := by
  have literal {inside : Region} (isLiteral : inside ≠ .code) (c : Char) : ¬ IsGap (c, inside) :=
    not_isGap_of_literal isLiteral
  fun_induction Region.mark region line generalizing afterSpace with
  | case1 region => rw [shrinkAfter, squeezeAfter, Region.mark]
  | case2 rest =>
      have solid : ∀ next ∈ ('/' :: '/' :: rest).map fun c => (c, Region.string), ¬ IsGap next := by
        rw [List.forall_mem_map]
        exact fun c _ => literal (by decide) c
      rw [List.map_cons, List.map_cons] at solid
      rw [squeezeAfter_of_forall solid, shrinkAfter_of_forall solid]
      simp [Region.mark, Function.comp_def]
  | case3 rest ih =>
      rw [shrinkAfter_kept (by decide), shrinkAfter_kept (by decide), Region.mark, ih,
        squeezeAfter_kept (by decide), squeezeAfter_literal (by decide) (by decide)]
  | case4 rest ih | case5 rest ih =>
      rw [shrinkAfter_kept (by decide), Region.mark, ih,
        squeezeAfter_literal (by decide) (by decide)]
  | case6 c rest noComment noVerbatim noQuote noApostrophe ih =>
      -- What is kept must not meet a second character that makes it open something.
      by_cases gap : IsGap (c, .code)
      · rw [shrinkAfter, if_pos ⟨rfl, gap.2⟩, squeezeAfter, if_pos gap]
        cases afterSpace with
        | true => exact ih true
        | false => rw [if_neg Bool.false_ne_true, if_neg Bool.false_ne_true, mark_blank, ih]
      · have noSpace : Unicode.isSpace c = false :=
          Bool.eq_false_iff.mpr fun space => gap ⟨rfl, space⟩
        rw [shrinkAfter_of_noSpace noSpace, Region.mark, ih, squeezeAfter_kept gap]
        · rintro more rfl
          exact not_starts_of_shrinkAfter_mark (by decide) fun rest => noComment rest rfl
        · rintro more rfl
          exact not_starts_of_shrinkAfter_mark (by decide) fun rest => noVerbatim rest rfl
        · exact noQuote
        · exact noApostrophe
  | case7 c rest ih | case10 c rest ih | case13 rest ih =>
      rw [shrinkAfter_kept (by decide), shrinkAfter_kept (literal (by decide) _), Region.mark, ih,
        squeezeAfter_kept (by decide), squeezeAfter_literal (literal (by decide) _) (by decide)]
  | case8 rest ih | case11 rest ih =>
      rw [shrinkAfter_kept (by decide), Region.mark, ih, squeezeAfter_kept (by decide)]
      -- A closing quote is no blank.
      rfl
  | case9 c rest noEscape noEnd ih | case12 c rest noEscape noEnd ih =>
      rw [shrinkAfter_kept (literal (by decide) _), Region.mark, ih,
        squeezeAfter_literal (literal (by decide) _) (by decide)]
      · -- A backslash escapes nothing here, because the line ends behind it.
        rintro d more rfl starts
        obtain ⟨e, behind, isRest, -⟩ := exists_of_shrinkAfter_mark starts
        exact noEscape e behind rfl isRest
      · exact noEnd
  | case14 rest single ih =>
      rw [shrinkAfter_kept (by decide), Region.mark, ih, squeezeAfter_kept (by decide)]
      · rfl
      · exact fun more => not_starts_of_shrinkAfter_mark (by decide) single
  | case15 c rest noPair noEnd ih =>
      rw [shrinkAfter_kept (literal (by decide) _), Region.mark, ih,
        squeezeAfter_literal (literal (by decide) _) (by decide)]
      · exact fun more isQuote => absurd isQuote noEnd
      · exact noEnd

/-- Shrinking a line that has been shrunk changes nothing. -/
theorem shrinkAfter_shrinkAfter (line : List Char) :
    shrinkAfter false (Region.mark .code (shrinkAfter false (Region.mark .code line))) =
      shrinkAfter false (Region.mark .code line) := by
  have once := mark_shrinkAfter .code line false
  have twice := mark_shrinkAfter .code (shrinkAfter false (Region.mark .code line)) false
  rw [once, squeezeAfter_squeezeAfter, ← once] at twice
  have same := congrArg (List.map (·.1)) twice
  rw [Region.map_fst_mark, Region.map_fst_mark, once] at same
  rw [once, same]

/-- A tidied line is read as the line without outer white space, squeezed. -/
theorem squeezes_tidy (line : List Char) :
    Squeezes (Region.mark .code (Unicode.trim line)) (Region.mark .code (tidy line)) := by
  rw [tidy, mark_shrinkAfter]
  exact squeezes_squeezeAfter _

end Marking

end ErrorAccessors.Layout
