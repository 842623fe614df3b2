/-
# Regions of a line

To lay out a line of code one has to know which of its characters are code and
which belong to a literal or a comment.  The characters are read from the left,
one line at a time: a literal that is still open at the end of a line ends
there.  A comment counts as literal text up to the end of the line.
-/

namespace ErrorAccessors

/-- What a character of a line belongs to. -/
inductive Region where
  | code
  /-- A regular string, or a comment at the end of the line. -/
  | string
  /-- A string without escapes, in which a quote is written twice. -/
  | verbatim
  | character
deriving DecidableEq, Repr, Inhabited

namespace Region

/-- Each character of a line with its region, where the line begins in a given
one.  The opening quote of a literal is code and the closing one is not. -/
def mark : Region → List Char → List (Char × Region)
  | _, [] => []
  | code, '/' :: '/' :: rest => ('/', string) :: ('/', string) :: rest.map fun c => (c, string)
  | code, '@' :: '"' :: rest => ('@', code) :: ('"', code) :: mark verbatim rest
  | code, '"' :: rest => ('"', code) :: mark string rest
  | code, '\'' :: rest => ('\'', code) :: mark character rest
  | code, c :: rest => (c, code) :: mark code rest
  | string, '\\' :: c :: rest => ('\\', string) :: (c, string) :: mark string rest
  | string, '"' :: rest => ('"', string) :: mark code rest
  | string, c :: rest => (c, string) :: mark string rest
  | character, '\\' :: c :: rest => ('\\', character) :: (c, character) :: mark character rest
  | character, '\'' :: rest => ('\'', character) :: mark code rest
  | character, c :: rest => (c, character) :: mark character rest
  | verbatim, '"' :: '"' :: rest => ('"', verbatim) :: ('"', verbatim) :: mark verbatim rest
  | verbatim, '"' :: rest => ('"', verbatim) :: mark code rest
  | verbatim, c :: rest => (c, verbatim) :: mark verbatim rest

/-- The characters of a line that are code. -/
def codeOf (line : List Char) : List Char :=
  ((mark code line).filter fun marked => marked.2 == code).map (·.1)

/-- Marking keeps the characters. -/
theorem map_fst_mark (region : Region) (line : List Char) :
    (mark region line).map (·.1) = line := by
  fun_induction mark region line <;> simp_all [Function.comp_def]

end Region

end ErrorAccessors
