/-
# Splitting and joining

A text is split at every character of a kind, so that there is always one part
more than there are separators and parts may be empty.  Dotted names are joined
from their non-empty parts.
-/

namespace ErrorAccessors.Text

/-- The parts of a text between the characters that satisfy a predicate. -/
def splitAt (separates : Char → Bool) : List Char → List (List Char)
  | [] => [[]]
  | c :: rest =>
    if separates c then [] :: splitAt separates rest
    else
      match splitAt separates rest with
      | [] => [[c]]
      | part :: parts => (c :: part) :: parts

/-- There is always at least one part. -/
theorem splitAt_ne_nil (separates : Char → Bool) (text : List Char) :
    splitAt separates text ≠ [] := by
  cases text with
  | nil => simp [splitAt]
  | cons c rest =>
    unfold splitAt
    split
    · simp
    · split <;> simp

/-- A separator ends one part and begins another. -/
theorem splitAt_append_of_separates {separates : Char → Bool} {separator : Char}
    (ends : separates separator = true) (front rest : List Char) :
    splitAt separates (front ++ separator :: rest) =
      splitAt separates front ++ splitAt separates rest := by
  induction front with
  | nil => simp [splitAt, ends]
  | cons c front ih =>
      rw [List.cons_append, splitAt, splitAt, ih]
      split
      · rfl
      · have some := splitAt_ne_nil separates front
        cases parts : splitAt separates front with
        | nil => exact absurd parts some
        | cons part parts => rfl

/-- A text is split at each of its separators if there is only one of a kind. -/
theorem splitAt_append (separator : Char) (front rest : List Char) :
    splitAt (· = separator) (front ++ separator :: rest) =
      splitAt (· = separator) front ++ splitAt (· = separator) rest :=
  splitAt_append_of_separates (decide_eq_true rfl) front rest

/-- A text without separators is one part. -/
theorem splitAt_of_notMem {separator : Char} {word : List Char} (plain : separator ∉ word) :
    splitAt (· = separator) word = [word] := by
  induction word with
  | nil => rfl
  | cons c word ih =>
      have other : c ≠ separator := fun same => plain (same ▸ List.mem_cons_self)
      rw [splitAt, ih fun member => plain (List.mem_cons_of_mem _ member)]
      simp [other]

/-- The parts of a dotted name, joined; empty parts are left out. -/
def joinDotted (parts : List String) : String :=
  ".".intercalate (parts.filter fun part => part ≠ "")

/-- The non-empty parts of a dotted name. -/
def dottedParts (name : String) : List String :=
  ((splitAt (· = '.') name.toList).filter fun part => part ≠ []).map String.ofList

end ErrorAccessors.Text
