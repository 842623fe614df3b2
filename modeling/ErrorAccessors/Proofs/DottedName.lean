/-
# What a dotted name determines

A full name is joined from the parts that are not empty.  Its last part can be
read back as long as it is a plain word: it is what stands behind the last dot.
Even where the parts hold dots themselves, two names with the same parts in
front agree only if their last parts do.
-/

import ErrorAccessors.Text.Split
import Mathlib.Data.List.Basic

namespace ErrorAccessors.Text

/-- Joining leaves nothing only if there are no parts but empty ones. -/
private theorem joinDotted_eq_empty {parts : List String} (empty : joinDotted parts = "") :
    (parts.filter fun part => part ≠ "") = [] := by
  cases kept : parts.filter fun part => part ≠ "" with
  | nil => rfl
  | cons first rest =>
      have member : first ∈ parts.filter fun part => part ≠ "" := kept ▸ List.mem_cons_self
      have nonempty : first ≠ "" := by simpa using (List.mem_filter.mp member).2
      rw [joinDotted, kept] at empty
      cases rest with
      | nil => exact absurd (by simpa using empty) nonempty
      | cons next others => simp [String.intercalate_cons_cons] at empty

/-- A last part is put behind a dot, unless it or everything in front of it is
empty. -/
theorem joinDotted_append_singleton (front : List String) (last : String) :
    joinDotted (front ++ [last]) =
      if last = "" then joinDotted front
      else if joinDotted front = "" then last
      else joinDotted front ++ "." ++ last := by
  by_cases noLast : last = ""
  · simp [joinDotted, noLast]
  have kept : ([last].filter fun part => part ≠ "") = [last] := by simp [noLast]
  rw [if_neg noLast]
  split
  · next empty =>
    rw [joinDotted, List.filter_append, joinDotted_eq_empty empty, kept]
    simp
  · next nonempty =>
    have some : (front.filter fun part => part ≠ "") ≠ [] := by
      intro nothing
      rw [joinDotted, nothing] at nonempty
      exact nonempty rfl
    rw [joinDotted, List.filter_append, kept,
      String.intercalate_append_of_ne_nil some (List.cons_ne_nil _ _), String.intercalate_singleton]
    rfl

private theorem ne_append_dot (front last : String) : front ≠ front ++ "." ++ last := by
  intro same
  have lengths := congrArg String.length same
  simp only [String.length_append] at lengths
  have dot : ".".length = 1 := rfl
  omega

/-- Behind the same parts, different last parts give different names. -/
theorem joinDotted_last_inj (front : List String) {first second : String}
    (same : joinDotted (front ++ [first]) = joinDotted (front ++ [second])) : first = second := by
  simp only [joinDotted_append_singleton] at same
  by_cases noFirst : first = "" <;> by_cases noSecond : second = ""
  · rw [noFirst, noSecond]
  · rw [if_pos noFirst, if_neg noSecond] at same
    split at same
    · next empty => exact absurd (same.symm.trans empty) noSecond
    · exact absurd same (ne_append_dot _ _)
  · rw [if_neg noFirst, if_pos noSecond] at same
    split at same
    · next empty => exact absurd (same.trans empty) noFirst
    · exact absurd same.symm (ne_append_dot _ _)
  · rw [if_neg noFirst, if_neg noSecond] at same
    split at same
    · exact same
    · simpa only [String.append_assoc, String.append_right_inj] using same

/-- A text ends with a part that stands alone or behind a dot. -/
def EndsWithPart (text part : String) : Prop :=
  ∃ front, text = front ++ part ∧ (front = "" ∨ ∃ before, front = before ++ ".")

theorem EndsWithPart.refl (text : String) : EndsWithPart text text :=
  ⟨"", (String.empty_append).symm, .inl rfl⟩

/-- A joined name ends with its last part. -/
theorem endsWithPart_joinDotted (front : List String) {last : String} (nonempty : last ≠ "") :
    EndsWithPart (joinDotted (front ++ [last])) last := by
  rw [joinDotted_append_singleton, if_neg nonempty]
  split
  · exact ⟨"", by simp, .inl rfl⟩
  · exact ⟨joinDotted front ++ ".", rfl, .inr ⟨_, rfl⟩⟩

/-- The end of the end is the end. -/
theorem EndsWithPart.trans {text middle part : String} (outer : EndsWithPart text middle)
    (inner : EndsWithPart middle part) : EndsWithPart text part := by
  obtain ⟨front, rfl, outerEnd⟩ := outer
  obtain ⟨within, rfl, innerEnd⟩ := inner
  refine ⟨front ++ within, (String.append_assoc ..).symm, ?_⟩
  rcases innerEnd with rfl | ⟨before, rfl⟩
  · rw [String.append_empty]
    exact outerEnd
  · exact .inr ⟨front ++ before, (String.append_assoc ..).symm⟩

/-- The characters behind the last dot. -/
private def behindLastDot (text : String) : List Char :=
  (text.toList.reverse.takeWhile (· ≠ '.')).reverse

private theorem behindLastDot_of_endsWithPart {text part : String} (ends : EndsWithPart text part)
    (plain : '.' ∉ part.toList) : behindLastDot text = part.toList := by
  have differs : ∀ c ∈ part.toList.reverse, (decide (c ≠ '.')) = true := by
    intro c member
    have other : c ≠ '.' := fun same => plain (same ▸ List.mem_reverse.mp member)
    simpa using other
  obtain ⟨front, rfl, frontEnd⟩ := ends
  rw [behindLastDot, String.toList_append, List.reverse_append,
    List.takeWhile_append_of_pos differs]
  rcases frontEnd with rfl | ⟨before, rfl⟩ <;> simp

/-- A text ends with one plain part at most. -/
theorem EndsWithPart.unique {text first second : String} (endsFirst : EndsWithPart text first)
    (endsSecond : EndsWithPart text second) (plainFirst : '.' ∉ first.toList)
    (plainSecond : '.' ∉ second.toList) : first = second := by
  rw [← String.toList_inj, ← behindLastDot_of_endsWithPart endsFirst plainFirst,
    behindLastDot_of_endsWithPart endsSecond plainSecond]

end ErrorAccessors.Text
