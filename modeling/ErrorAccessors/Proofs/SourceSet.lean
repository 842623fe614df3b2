/-
# Which sources a named set keeps

A set of named sources forgets a source when another one is added under its
name.  Adding a list of sources therefore keeps all of them exactly when their
names differ.  The names in a set are always in strictly increasing order.
-/

import ErrorAccessors.SourceSet
import Mathlib.Data.List.Nodup
import Mathlib.Data.String.Basic

namespace ErrorAccessors.SourceSet

/-- The names stand in strictly increasing order, so each stands there once. -/
def Ordered (entries : List (String × String)) : Prop :=
  entries.Pairwise fun first second => first.1 < second.1

theorem insertEntry_cons (name text : String) (first : String × String)
    (rest : List (String × String)) :
    insertEntry name text (first :: rest) =
      if name = first.1 then (name, text) :: rest
      else if name < first.1 then (name, text) :: first :: rest
      else first :: insertEntry name text rest := rfl

theorem mem_names_insertEntry {name text held : String} {entries : List (String × String)} :
    held ∈ (insertEntry name text entries).map (·.1) ↔
      held = name ∨ held ∈ entries.map (·.1) := by
  induction entries with
  | nil => simp [insertEntry]
  | cons first rest ih =>
      rw [insertEntry_cons]
      split
      · next same => simp [same]
      · split
        · simp
        · rw [List.map_cons, List.mem_cons, ih, List.map_cons, List.mem_cons]
          tauto

theorem ordered_insertEntry {name text : String} {entries : List (String × String)}
    (ordered : Ordered entries) : Ordered (insertEntry name text entries) := by
  induction entries with
  | nil => exact List.pairwise_singleton _ _
  | cons first rest ih =>
      obtain ⟨firstLeast, restOrdered⟩ := List.pairwise_cons.mp ordered
      rw [insertEntry_cons]
      split
      · next same => exact List.pairwise_cons.mpr ⟨by simpa [same] using firstLeast, restOrdered⟩
      · next differs =>
          split
          · next before =>
              refine List.pairwise_cons.mpr ⟨fun entry member => ?_, ordered⟩
              rcases List.mem_cons.mp member with rfl | later
              · exact before
              · exact before.trans (firstLeast entry later)
          · next notBefore =>
              have behind : first.1 < name :=
                lt_of_le_of_ne (not_lt.mp notBefore) (Ne.symm differs)
              refine List.pairwise_cons.mpr ⟨fun entry member => ?_, ih restOrdered⟩
              have named := mem_names_insertEntry.mp (List.mem_map_of_mem member)
              rcases named with same | later
              · exact same ▸ behind
              · obtain ⟨other, otherMember, same⟩ := List.mem_map.mp later
                exact same ▸ firstLeast other otherMember

/-- Under a free name a source is added, and nothing is lost. -/
theorem insertEntry_perm {name : String} (text : String) {entries : List (String × String)}
    (free : name ∉ entries.map (·.1)) :
    (insertEntry name text entries).Perm ((name, text) :: entries) := by
  induction entries with
  | nil => exact List.Perm.refl _
  | cons first rest ih =>
      rw [List.map_cons, List.mem_cons, not_or] at free
      rw [insertEntry_cons]
      rw [if_neg free.1]
      split
      · exact List.Perm.refl _
      · exact ((ih free.2).cons _).trans (List.Perm.swap _ _ _)

theorem ordered_insertAll {sources : SourceSet} (ordered : Ordered sources.entries)
    (more : List (String × String)) : Ordered (sources.insertAll more).entries := by
  induction more generalizing sources with
  | nil => exact ordered
  | cons entry rest ih => exact ih (ordered_insertEntry ordered)

/-- Sources with names that differ from each other and from those in the set are
all kept. -/
theorem insertAll_perm (sources : SourceSet) {more : List (String × String)}
    (differ : (more.map (·.1)).Nodup)
    (free : ∀ name ∈ more.map (·.1), name ∉ sources.entries.map (·.1)) :
    (sources.insertAll more).entries.Perm (more ++ sources.entries) := by
  induction more generalizing sources with
  | nil => exact List.Perm.refl _
  | cons entry rest ih =>
      rw [List.map_cons, List.nodup_cons] at differ
      have freeHere := free entry.1 List.mem_cons_self
      have freeLater : ∀ name ∈ rest.map (·.1),
          name ∉ (sources.insert entry.1 entry.2).entries.map (·.1) := by
        intro name member named
        rcases mem_names_insertEntry.mp named with rfl | held
        · exact differ.1 member
        · exact free name (List.mem_cons_of_mem _ member) held
      have later := ih (sources.insert entry.1 entry.2) differ.2 freeLater
      refine later.trans ?_
      exact ((insertEntry_perm entry.2 freeHere).append_left rest).trans List.perm_middle

/-- All of a list of sources are kept exactly when their names differ. -/
theorem insertAll_empty_perm_iff {sources : List (String × String)} :
    (empty.insertAll sources).entries.Perm sources ↔ (sources.map (·.1)).Nodup := by
  constructor
  · intro kept
    have ordered : Ordered (empty.insertAll sources).entries :=
      ordered_insertAll List.Pairwise.nil sources
    have differ : ((empty.insertAll sources).entries.map (·.1)).Nodup :=
      List.pairwise_map.mpr (ordered.imp fun before => ne_of_lt before)
    exact (kept.map _).nodup_iff.mp differ
  · intro differ
    simpa [empty] using insertAll_perm empty differ (by simp [empty])

end ErrorAccessors.SourceSet
