/-
# The order of reports

Paths are compared by a total preorder, and so are diagnostics.  Sorting therefore puts
every diagnostic in front of those that come after it, and diagnostics whose places differ
can be sorted in one way only, in whatever order they were found.
-/

import ErrorAccessors.Diagnostic.Order
import Mathlib.Data.List.Sort

namespace ErrorAccessors

/-- What is compared of two steps of the same kind. -/
def PathComponent.text : PathComponent → String
  | name text => text
  | root | here | up => ""

/-- Steps compare by kind and then by name. -/
theorem PathComponent.compare_eq :
    compare = compareLex (compareOn rank) (compareOn text) := by
  funext first second
  cases first <;> cases second <;> rfl

instance PathComponent.transCmp_compare : Std.TransCmp compare := by
  rw [compare_eq]
  infer_instance

theorem Path.compareComponents_eq :
    compareComponents = List.compareLex PathComponent.compare := by
  funext first second
  induction first generalizing second with
  | nil => cases second <;> rfl
  | cons component first ih =>
      cases second with
      | nil => rfl
      | cons other second =>
          rw [compareComponents, List.compareLex_cons_cons, ih]
          cases component.compare other <;> rfl

instance Path.transCmp_compareComponents : Std.TransCmp compareComponents := by
  rw [compareComponents_eq]
  infer_instance

instance Path.transCmp_compare : Std.TransCmp compare where
  eq_swap := transCmp_compareComponents.eq_swap
  isLE_trans := transCmp_compareComponents.isLE_trans

namespace Diagnostic

instance transCmp_compare : Std.TransCmp compare := by
  have byFile : Std.TransCmp fun first second : Diagnostic =>
      Path.compare first.span.file second.span.file :=
    { eq_swap := Path.transCmp_compare.eq_swap
      isLE_trans := Path.transCmp_compare.isLE_trans }
  exact inferInstanceAs (Std.TransCmp (compareLex
    (fun first second : Diagnostic => Path.compare first.span.file second.span.file)
    (compareLex (compareOn (·.span.start.offset)) (compareOn (·.code)))))

/-- A diagnostic is reported for an earlier file than another one, or further to the front of
the same file. -/
def ReportedBefore (first second : Diagnostic) : Prop :=
  Path.compare first.span.file second.span.file = .lt ∨
    Path.compare first.span.file second.span.file = .eq ∧
      first.span.start.offset < second.span.start.offset

/-- Diagnostics at places that differ are compared by their places. -/
def Apart (first second : Diagnostic) : Prop :=
  Path.compare first.span.file second.span.file = .eq →
    first.span.start.offset ≠ second.span.start.offset

variable {first second : Diagnostic}

theorem Apart.symm (apart : first.Apart second) : second.Apart first := by
  intro sameFile samePlace
  exact apart (Std.OrientedCmp.eq_symm sameFile) samePlace.symm

theorem Apart.reportedBefore (apart : first.Apart second) (before : compare first second ≠ .gt) :
    first.ReportedBefore second := by
  rw [compare] at before
  cases files : Path.compare first.span.file second.span.file with
  | lt => exact .inl files
  | gt => simp [files] at before
  | eq =>
    refine .inr ⟨files, lt_of_le_of_ne (not_lt.mp fun behind => before ?_) (apart files)⟩
    rw [files, Nat.compare_eq_gt.mpr behind]
    rfl

theorem ReportedBefore.asymm (before : first.ReportedBefore second)
    (behind : second.ReportedBefore first) : False := by
  obtain earlier | ⟨sameFile, front⟩ := before
  · have later := Std.OrientedCmp.gt_of_lt earlier
    obtain again | ⟨sameFile, -⟩ := behind
    · rw [later] at again
      cases again
    · rw [later] at sameFile
      cases sameFile
  · have later := Std.OrientedCmp.eq_symm sameFile
    obtain again | ⟨-, back⟩ := behind
    · rw [later] at again
      cases again
    · exact absurd front (lt_asymm back)

/-- Sorted diagnostics are in the order in which they are compared. -/
theorem pairwise_compare_sort (diagnostics : List Diagnostic) :
    (sort diagnostics).Pairwise fun first second => compare first second ≠ .gt := by
  have ordered : (sort diagnostics).Pairwise fun first second =>
      (compare first second != .gt) = true := by
    apply List.pairwise_mergeSort
    · intro first second third before behind
      simp only [bne_iff_ne, ne_eq, Ordering.ne_gt_iff_isLE] at before behind ⊢
      exact Std.TransCmp.isLE_trans before behind
    · intro first second
      have swapped : compare second first = (compare first second).swap := Std.OrientedCmp.eq_swap
      rw [swapped]
      cases compare first second <;> rfl
  exact ordered.imp bne_iff_ne.mp

/-- Diagnostics at different places are sorted by their places. -/
theorem pairwise_sort {diagnostics : List Diagnostic} (apart : diagnostics.Pairwise Apart) :
    (sort diagnostics).Pairwise ReportedBefore := by
  have different : (sort diagnostics).Pairwise Apart :=
    (sort_perm diagnostics).symm.pairwise apart fun apart => apart.symm
  refine ((pairwise_compare_sort diagnostics).and different).imp ?_
  rintro first second ⟨before, apart⟩
  exact apart.reportedBefore before

/-- There is one way to sort diagnostics at different places. -/
theorem sort_eq_of_perm {diagnostics reordered : List Diagnostic}
    (apart : diagnostics.Pairwise Apart) (same : reordered.Perm diagnostics) :
    sort reordered = sort diagnostics := by
  have alsoApart : reordered.Pairwise Apart := same.symm.pairwise apart fun apart => apart.symm
  have samePlaces : (sort reordered).Perm (sort diagnostics) :=
    ((sort_perm reordered).trans same).trans (sort_perm diagnostics).symm
  apply samePlaces.eq_of_pairwise _ (pairwise_sort alsoApart) (pairwise_sort apart)
  intro first second _ _ before behind
  exact (before.asymm behind).elim

end Diagnostic

end ErrorAccessors
